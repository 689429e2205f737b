import MeetilyLocal.Audio.FinalizeCrash

/-!
# What recovering the audio of a meeting can lose

Recovery should end with the checkpointed samples in `audio.mp4`, or with the checkpoints on disk and
the meeting still listed as interrupted (`Recovery.LosesNothing`). It marks the row as completed
whatever became of the audio, and with the path of the audio only if it has just encoded it; and it
encodes what it finds, over what is there. So it keeps that promise where it marks the row exactly
if it finds all the checkpoints and encodes them; where it does not get to mark the row, if it has
left the audio as safe as it was (`Recovery.losesNothing_iff`).
-/

namespace MeetilyLocal

open IncrementalAudioSaver Finalizing

namespace Recovery

/-! ## What recovery promises, and when -/

/-- A complete `audio.mp4` is not replaced by one with fewer samples. -/
def NotShortened (parts : List (List Sample)) (before after : Option AudioFile) : Prop :=
  ∀ audio, before = some audio → Complete parts before →
    ∃ audio', after = some audio' ∧ audio.pcm.length ≤ audio'.pcm.length

/-- The meeting is listed as interrupted. -/
def Listed (row : Option MeetingRow) : Prop := ∃ row', row = some row' ∧ row'.status = .interrupted

/-- No audio is lost. -/
structure LosesNothing (parts : List (List Sample)) (before after : RecoveryWorld) : Prop where
  /-- the samples are in `audio.mp4`, or else in the checkpoints of an interrupted meeting -/
  audio : Complete parts after.folder.audio ∨
    AllOnDisk parts after.folder.checkpoints ∧ Listed after.row
  /-- a complete `audio.mp4` is not shortened -/
  kept : NotShortened parts before.folder.audio after.folder.audio
  /-- a row does not get `NULL` for the path of an audio that exists -/
  path : after.row ≠ before.row → ∀ row, after.row = some row → row.audioPath = none →
    after.folder.audio = none

/-- Recovery finds PCM checkpoints to encode. -/
structure Encodes (env : RecoverEnv) (row : MeetingRow) (folder : RecordingFolder) : Prop where
  /-- the row names the folder -/
  path : row.folderPath ≠ none
  /-- which has a checkpoints directory -/
  checkpoints : folder.checkpoints ≠ none
  /-- it can be read, the three times that it is -/
  readDir : ∀ k < 3, env.readDir k = none
  /-- there are checkpoints in it -/
  files : listCheckpointFiles env.listing checkpointExtension ≠ []

/-- They are encoded. -/
structure EncodeSucceeds (env : RecoverEnv) : Prop where
  /-- the task does not panic -/
  panic : env.panic = none
  /-- ffmpeg starts -/
  spawn : env.spawn = .ok ()
  /-- each of them is read to its end -/
  read : ∀ file ∈ listCheckpointFiles env.listing checkpointExtension, env.readError file = none
  /-- ffmpeg reports success -/
  exit : env.exit = .ok ()

/-- The whole frames in the checkpoints that are listed, in the order of their names. -/
def listedPcm (env : RecoverEnv) (folder : RecordingFolder) : List UInt8 :=
  wholeFrames (frameBytes 2) ((listCheckpointFiles env.listing checkpointExtension).flatMap
    (contentOf (folder.checkpoints.getD .empty)))

/-- What an encode that fails leaves of `audio.mp4`. -/
def leftover (env : RecoverEnv) (audio : Option AudioFile) : Option AudioFile :=
  match env.panic, env.spawn with
  | none, .error _ => audio
  | _, _ => env.left audio

/-- Removing the checkpoints directory fails, and none of them is gone. -/
def KeepsCheckpoints (parts : List (List Sample)) (env : RecoverEnv) : Prop :=
  ∃ kept, env.cleanup = some kept ∧ ∀ i < parts.length, kept (checkpointName i) = true

/-- When recovery loses nothing. If it gets to mark the row, it has to encode the checkpoints, and
these have to be all. If it encodes and does not get to mark the row, it has to leave the samples
in one of their forms. -/
def RecoversAll (parts : List (List Sample)) (env : RecoverEnv) (row : MeetingRow)
    (folder : RecordingFolder) : Prop :=
  parts = [] ∨
  (env.select = true → env.update = true →
    Encodes env row folder ∧ EncodeSucceeds env ∧ listedPcm env folder = fullPcm parts) ∧
  (env.select = true → env.update = false → Encodes env row folder → EncodeSucceeds env →
    listedPcm env folder = fullPcm parts ∨
      (AllOnDisk parts folder.checkpoints ∧ KeepsCheckpoints parts env ∧
        NotShortened parts folder.audio (some (recordedAudio (listedPcm env folder))))) ∧
  (env.select = true → env.update = false → Encodes env row folder → ¬EncodeSucceeds env →
    (Complete parts (leftover env folder.audio) ∨ AllOnDisk parts folder.checkpoints) ∧
      NotShortened parts folder.audio (leftover env folder.audio)) ∧
  (env.select = false ∨ env.update = false ∧ ¬Encodes env row folder → Safe parts folder)

/-- The directory is listed as it is, and the sidecar is read as it was written. -/
structure Faithful (env : RecoverEnv) (folder : RecordingFolder) : Prop where
  /-- the listing names the files of the directory -/
  listing : ∀ dir, folder.checkpoints = some dir → dir.Lists env.listing
  /-- the layout in the sidecar -/
  format : env.parseFormat (formatJson 48000 2) = some (48000, 2)

variable {env : RecoverEnv} {row : MeetingRow} {folder : RecordingFolder} {dir : Directory}
  {parts : List (List Sample)} {st : Finalizing} {file : FileName}

/-! ## What it finds -/

theorem readOrDefault_eq (hown : OwnFiles parts dir) (h : Faithful env folder) :
    readOrDefault env dir = (48000, 2) := by
  unfold readOrDefault
  split
  · rfl
  · rcases hread : dir checkpointFormatFile with _ | bytes
    · rfl
    · simp [hown.format bytes hread, h.format]

/-- A listed checkpoint file is there. -/
theorem ne_none_of_mem_listCheckpointFiles (hdir : folder.checkpoints = some dir)
    (h : Faithful env folder) {ext : FileName} (hfile : file ∈ listCheckpointFiles env.listing ext) :
    dir file ≠ none ∧ isCheckpointFile ext file = true := by
  have hmem := (List.mergeSort_perm _ _).mem_iff.mp hfile
  rw [List.mem_filter] at hmem
  exact ⟨((h.listing dir hdir).mem_iff file).mp hmem.1, hmem.2⟩

/-- The saver writes no legacy checkpoints. -/
theorem legacy_eq_nil (hdir : folder.checkpoints = some dir) (hown : OwnFiles parts dir)
    (h : Faithful env folder) :
    listCheckpointFiles env.listing legacyCheckpointExtension = [] := by
  refine List.eq_nil_iff_forall_not_mem.mpr fun file hfile => ?_
  obtain ⟨hne, hlegacy⟩ := ne_none_of_mem_listCheckpointFiles hdir h hfile
  rw [isCheckpointFile, Bool.and_eq_true, beq_iff_eq] at hlegacy
  have hext := hlegacy.1
  rcases hown.own file hne with rfl | ⟨i, -, rfl⟩ | ⟨i, rfl⟩
  · exact absurd hext (by decide)
  · rw [checkpointName, FileName.extension_append (checkpointStem_ne_nil i) (by decide) (by decide)]
      at hext
    exact absurd hext (by decide)
  · rw [partialName_eq, FileName.extension_append (by simp) (by decide) (by decide)] at hext
    exact absurd hext (by decide)

/-- A checkpoint file that is listed is one of those that were saved. -/
theorem exists_of_mem_listCheckpointFiles (hdir : folder.checkpoints = some dir)
    (hown : OwnFiles parts dir) (h : Faithful env folder)
    (hfile : file ∈ listCheckpointFiles env.listing checkpointExtension) :
    ∃ i < parts.length, file = checkpointName i := by
  obtain ⟨hne, hcheckpoint⟩ := ne_none_of_mem_listCheckpointFiles hdir h hfile
  rcases hown.own file hne with rfl | hname | ⟨i, rfl⟩
  · exact absurd hcheckpoint (by decide)
  · exact hname
  · rw [isCheckpointFile_partialName] at hcheckpoint
    cases hcheckpoint

/-- There are none of nothing. -/
theorem not_encodes_of_nil (hdir : folder.checkpoints = some dir) (hown : OwnFiles [] dir)
    (h : Faithful env folder) : ¬Encodes env row folder := by
  intro hencodes
  obtain ⟨file, hfile⟩ := List.exists_mem_of_ne_nil _ hencodes.files
  obtain ⟨i, hi, -⟩ := exists_of_mem_listCheckpointFiles hdir hown h hfile
  exact absurd hi (Nat.not_lt_zero i)

/-- What probing the folder finds if there are checkpoints. -/
theorem hasAudioCheckpoints_of_encodes (h : Encodes env row folder) :
    hasAudioCheckpoints env folder = .ok true := by
  obtain ⟨dir, hdir⟩ := Option.ne_none_iff_exists'.mp h.checkpoints
  obtain ⟨file, hfile⟩ := List.exists_mem_of_ne_nil _ h.files
  have hmem := (List.mergeSort_perm _ _).mem_iff.mp hfile
  rw [List.mem_filter, isCheckpointFile, Bool.and_eq_true] at hmem
  have hany : env.listing.any (fun file => file.extension == some checkpointExtension ||
      file.extension == some legacyCheckpointExtension) = true :=
    List.any_eq_true.mpr ⟨file, hmem.1, by simp [hmem.2.1]⟩
  rw [hasAudioCheckpoints, hdir, h.readDir 0 (by omega)]
  simp only [hany]

/-! ## What it does -/

/-- Without checkpoints to encode it does nothing, and has no path for the row. -/
theorem recoverAudio_of_not_encodes (hsound : ∀ dir, folder.checkpoints = some dir →
    OwnFiles parts dir) (h : Faithful env folder) (hnone : ¬Encodes env row folder) :
    ∃ duration, recoverAudio env row.folderPath folder = (duration, none, folder) := by
  rcases hpath : row.folderPath with _ | path
  · exact ⟨none, rfl⟩
  rcases hprobe : hasAudioCheckpoints env folder with message | _ | _
  · exact ⟨none, by simp [recoverAudio, hprobe]⟩
  · exact ⟨none, by simp [recoverAudio, hprobe]⟩
  suffices hrecover : ∃ result, recoverAudioFromCheckpoints env path folder = (result, folder) ∧
      ∀ status, result = .ok status → status.status = .none ∧ status.audioFilePath = none by
    obtain ⟨message | status, hresult, hstatus⟩ := hrecover
    · exact ⟨none, by simp [recoverAudio, hprobe, hresult]⟩
    · obtain ⟨hnone, hpath⟩ := hstatus status rfl
      refine ⟨some status.estimatedDurationSeconds, ?_⟩
      simp [recoverAudio, hprobe, hresult, hnone, hpath]
  unfold recoverAudioFromCheckpoints
  rcases hdir : folder.checkpoints with _ | dir
  · exact ⟨_, rfl, by rintro status ⟨⟩; exact ⟨rfl, rfl⟩⟩
  rcases hpcm : env.readDir 1 with _ | message
  · rcases hlegacy : env.readDir 2 with _ | message
    · have hread : env.readDir 0 = none := by
        rcases hzero : env.readDir 0 with _ | message
        · rfl
        · simp [hasAudioCheckpoints, hdir, hzero] at hprobe
      have hfiles : listCheckpointFiles env.listing checkpointExtension = [] := by
        by_contra hfiles
        refine hnone ⟨by simp [hpath], by simp [hdir], fun k hk => ?_, hfiles⟩
        interval_cases k
        · exact hread
        · exact hpcm
        · exact hlegacy
      refine ⟨.ok (nothingFound "No audio checkpoint files found"), ?_, ?_⟩
      · simp [hfiles, legacy_eq_nil hdir (hsound dir hdir) h]
      · rintro status ⟨⟩
        exact ⟨rfl, rfl⟩
    · exact ⟨_, rfl, nofun⟩
  · exact ⟨_, rfl, nofun⟩

theorem fileReads_readsAs (hexists : dir file ≠ none) (hread : env.readError file = none) :
    ReadsAs (fileReads env dir file) (contentOf dir file) := by
  obtain ⟨bytes, hbytes⟩ := Option.ne_none_iff_exists'.mp hexists
  have hreads : fileReads env dir file = ⟨env.reading.cut bytes, none⟩ := by
    rw [fileReads, hbytes, hread]
  have hcontent : contentOf dir file = bytes := by rw [contentOf, hbytes, Option.getD_some]
  rw [hreads, hcontent]
  exact ⟨rfl, env.reading.cut_flatten bytes, env.reading.cut_nonempty bytes⟩

/-- A file that is not read to its end stops the feeding. -/
theorem feedFiles_error {frame : ℕ} {state : List UInt8 × List UInt8} {files : List FileReads}
    {pcm : List UInt8} (h : feedFiles frame state files = (pcm, none)) :
    ∀ file ∈ files, file.error = none := by
  induction files generalizing state with
  | nil => exact fun _ => nofun
  | cons file files ih =>
    obtain ⟨written, carry⟩ := state
    unfold feedFiles at h
    split at h
    · next herror =>
      rintro other hother
      rcases List.mem_cons.mp hother with rfl | hrest
      · exact herror
      · exact ih h other hrest
    · cases h

/-- The encode succeeds, and then `audio.mp4` is what was listed. -/
theorem encodeFiles_of_succeeds (hdir : folder.checkpoints = some dir) (hown : OwnFiles parts dir)
    (h : Faithful env folder) (hencodes : Encodes env row folder) (hsucceeds : EncodeSucceeds env) :
    encodeFiles env dir (listCheckpointFiles env.listing checkpointExtension)
      (readOrDefault env dir) folder.audio =
        (.ok (), some (recordedAudio (listedPcm env folder))) := by
  have hreads : List.Forall₂ ReadsAs
      ((listCheckpointFiles env.listing checkpointExtension).map (fileReads env dir))
      ((listCheckpointFiles env.listing checkpointExtension).map (contentOf dir)) := by
    rw [List.forall₂_map_left_iff, List.forall₂_map_right_iff, List.forall₂_same]
    intro file hfile
    exact fileReads_readsAs (ne_none_of_mem_listCheckpointFiles hdir h hfile).1
      (hsucceeds.read file hfile)
  have hfeed := feedFiles_eq (feeding_nil (frameBytes_pos 2)) hreads
  have hok := encodePcmFilesToAac_eq_ok.mpr
    ⟨by simpa using hencodes.files, hfeed, hsucceeds.exit⟩
  rw [encodeFiles, hsucceeds.spawn, readOrDefault_eq hown h]
  simp only [hok, recordedAudio, listedPcm, hdir, Option.getD_some, List.flatMap_def,
    List.nil_append]

/-- It does not, and then `audio.mp4` is what is left of it. -/
theorem encodeFiles_of_not_succeeds (hdir : folder.checkpoints = some dir)
    (h : Faithful env folder) (hpanic : env.panic = none) (hfails : ¬EncodeSucceeds env)
    (format : ℕ × ℕ) : ∃ message,
      encodeFiles env dir (listCheckpointFiles env.listing checkpointExtension) format folder.audio =
        (.error message, leftover env folder.audio) := by
  unfold encodeFiles leftover
  rcases hspawn : env.spawn with message | _
  · exact ⟨message, by simp [hpanic]⟩
  rcases hencode : encodePcmFilesToAac
    ((listCheckpointFiles env.listing checkpointExtension).map (fileReads env dir)) format.2
      env.exit with ⟨written, message | _⟩
  · exact ⟨message, by simp [hpanic]⟩
  obtain ⟨-, hfeed, hexit⟩ := encodePcmFilesToAac_eq_ok.mp hencode
  refine absurd ⟨hpanic, hspawn, fun file hfile => ?_, hexit⟩ hfails
  have herror := feedFiles_error hfeed (fileReads env dir file) (List.mem_map_of_mem hfile)
  obtain ⟨bytes, hbytes⟩ := Option.ne_none_iff_exists'.mp
    (ne_none_of_mem_listCheckpointFiles hdir h hfile).1
  rcases hread : env.readError file with _ | ⟨n, message⟩
  · rfl
  · simp [fileReads, hbytes, hread] at herror

/-- Where there are checkpoints, it comes down to their encode. -/
theorem exists_recoverAudio (hdir : folder.checkpoints = some dir)
    (hencodes : Encodes env row folder) :
    ∃ duration path, recoverAudio env row.folderPath folder =
      match env.panic, encodeFiles env dir (listCheckpointFiles env.listing checkpointExtension)
        (readOrDefault env dir) folder.audio with
      | some _, _ => (none, none, { folder with audio := env.left folder.audio })
      | none, (.ok (), audio) =>
        (some duration, some path, cleanupCheckpoints env { folder with audio := audio })
      | none, (.error _, audio) => (some duration, none, { folder with audio := audio }) := by
  obtain ⟨path, hpath⟩ := Option.ne_none_iff_exists'.mp hencodes.path
  have hfiles : (listCheckpointFiles env.listing checkpointExtension).isEmpty = false := by
    simpa using hencodes.files
  simp only [recoverAudio, hpath, hasAudioCheckpoints_of_encodes hencodes,
    recoverAudioFromCheckpoints, hdir, hencodes.readDir 1 (by omega),
    hencodes.readDir 2 (by omega), hfiles, Bool.false_and, Bool.false_eq_true, if_false,
    Bool.not_false, if_true]
  refine ⟨pcmFilesDurationSecs env dir (listCheckpointFiles env.listing checkpointExtension)
    (readOrDefault env dir), path ++ "/audio.mp4", ?_⟩
  rcases env.panic with _ | message
  · rcases encodeFiles env dir (listCheckpointFiles env.listing checkpointExtension)
      (readOrDefault env dir) folder.audio with ⟨message | _, audio⟩ <;> rfl
  · rfl

/-- The checkpoints are encoded and removed, and the row gets a path. -/
theorem recoverAudio_of_succeeds (hdir : folder.checkpoints = some dir) (hown : OwnFiles parts dir)
    (h : Faithful env folder) (hencodes : Encodes env row folder) (hsucceeds : EncodeSucceeds env) :
    ∃ duration path, recoverAudio env row.folderPath folder = (duration, some path,
      cleanupCheckpoints env
        { folder with audio := some (recordedAudio (listedPcm env folder)) }) := by
  obtain ⟨duration, path, heq⟩ := exists_recoverAudio hdir hencodes
  rw [heq, hsucceeds.panic, encodeFiles_of_succeeds hdir hown h hencodes hsucceeds]
  exact ⟨duration, path, rfl⟩

/-- The checkpoints are not encoded, and the row gets none. -/
theorem recoverAudio_of_fails (hdir : folder.checkpoints = some dir) (h : Faithful env folder)
    (hencodes : Encodes env row folder) (hfails : ¬EncodeSucceeds env) :
    ∃ duration, recoverAudio env row.folderPath folder =
      (duration, none, { folder with audio := leftover env folder.audio }) := by
  obtain ⟨duration, path, heq⟩ := exists_recoverAudio hdir hencodes
  rw [heq]
  rcases hpanic : env.panic with _ | message
  · obtain ⟨message, hencode⟩ :=
      encodeFiles_of_not_succeeds hdir h hpanic hfails (readOrDefault env dir)
    rw [hencode]
    exact ⟨duration, rfl⟩
  · rw [leftover, hpanic]
    exact ⟨none, rfl⟩

/-! ## What it leaves -/

theorem notShortened_self {audio : Option AudioFile} : NotShortened parts audio audio :=
  fun audio h _ => ⟨audio, h, le_refl _⟩

/-- The row stays as it was. -/
theorem losesNothing_unmarked {folder' : RecordingFolder} {db : Database}
    (hrow : row.status = .interrupted) :
    LosesNothing parts ⟨some row, folder, db⟩ ⟨some row, folder', db⟩ ↔
      Safe parts folder' ∧ NotShortened parts folder.audio folder'.audio := by
  constructor
  · rintro ⟨haudio, hkept, -⟩
    exact ⟨haudio.imp_right And.left, hkept⟩
  · rintro ⟨hsafe, hkept⟩
    exact ⟨hsafe.imp_right fun hdisk => ⟨hdisk, row, rfl, hrow⟩, hkept, fun hne => absurd rfl hne⟩

/-- The row is marked as completed. -/
theorem losesNothing_marked {folder' : RecordingFolder} {db : Database} {now : String}
    {duration : Option Float} {path : Option String} (hrow : row.status = .interrupted) :
    LosesNothing parts ⟨some row, folder, db⟩
        ⟨some (markMeetingCompleted now duration path row), folder', db⟩ ↔
      Complete parts folder'.audio ∧ NotShortened parts folder.audio folder'.audio ∧
        (path = none → folder'.audio = none) := by
  constructor
  · rintro ⟨haudio, hkept, hpath⟩
    refine ⟨haudio.resolve_right ?_, hkept, fun hnone => hpath ?_ _ rfl hnone⟩
    · rintro ⟨-, row', ⟨⟩, hlisted⟩
      cases hlisted
    · intro hsame
      have hstatus := congrArg MeetingRow.status (Option.some.inj hsame)
      rw [hrow] at hstatus
      cases hstatus
  · rintro ⟨hcomplete, hkept, hpath⟩
    refine ⟨Or.inl hcomplete, hkept, ?_⟩
    rintro - row' ⟨⟩ hnone
    exact hpath hnone

/-- Without a path it should not have been. -/
theorem not_losesNothing_marked {folder' : RecordingFolder} {db : Database} {now : String}
    {duration : Option Float} (hrow : row.status = .interrupted) (hparts : parts ≠ []) :
    ¬LosesNothing parts ⟨some row, folder, db⟩
      ⟨some (markMeetingCompleted now duration none row), folder', db⟩ := by
  rw [losesNothing_marked hrow]
  rintro ⟨hcomplete, -, hpath⟩
  rw [hpath rfl] at hcomplete
  cases hcomplete.resolve_left hparts

theorem complete_recordedAudio (pcm : List UInt8) (hparts : parts ≠ []) :
    Complete parts (some (recordedAudio pcm)) ↔ pcm = fullPcm parts := by
  rw [Complete, or_iff_right hparts, Option.some.injEq, recordedAudio, recordedAudio,
    AudioFile.mk.injEq]
  simp

/-- What is complete is not shorter than what was. -/
theorem notShortened_of_complete {before after : Option AudioFile} (hparts : parts ≠ [])
    (h : Complete parts after) : NotShortened parts before after := by
  rintro audio haudio hbefore
  have hfull := hbefore.resolve_left hparts
  rw [haudio] at hfull
  exact ⟨audio, (h.resolve_left hparts).trans hfull.symm, le_refl _⟩

theorem audio_cleanupCheckpoints (env : RecoverEnv) (folder : RecordingFolder) :
    (cleanupCheckpoints env folder).audio = folder.audio := by
  unfold cleanupCheckpoints
  split <;> rfl

/-- The checkpoints are still there after the cleanup if they were before, and it keeps them. -/
theorem allOnDisk_cleanupCheckpoints {audio : Option AudioFile} :
    AllOnDisk parts (cleanupCheckpoints env { folder with audio := audio }).checkpoints ↔
      AllOnDisk parts folder.checkpoints ∧ KeepsCheckpoints parts env := by
  unfold cleanupCheckpoints KeepsCheckpoints
  rcases env.cleanup with _ | kept
  · simp [AllOnDisk]
  constructor
  · rintro ⟨dir', hdir', hfiles⟩
    obtain ⟨dir, hdir, rfl⟩ := Option.map_eq_some_iff.mp hdir'
    have hkept : ∀ i part, parts[i]? = some part → kept (checkpointName i) = true ∧
        dir (checkpointName i) = some (castSlice part) := by
      intro i part hi
      have hfile := hfiles i part hi
      unfold keepFiles at hfile
      split at hfile
      · next h => exact ⟨h, hfile⟩
      · cases hfile
    refine ⟨⟨dir, hdir, fun i part hi => (hkept i part hi).2⟩, kept, rfl, fun i hi => ?_⟩
    exact (hkept i _ (List.getElem?_eq_getElem hi)).1
  · rintro ⟨⟨dir, hdir, hfiles⟩, kept', hkept', hkeeps⟩
    obtain rfl := Option.some.inj hkept'
    refine ⟨keepFiles kept dir, by simp [hdir], fun i part hi => ?_⟩
    have hlt := (List.getElem?_eq_some_iff.mp hi).1
    rw [keepFiles, if_pos (hkeeps i hlt), hfiles i part hi]

/-- What the task does to the row and the folder. -/
theorem recoverMeeting_eq {db : Database} (hselect : env.select = true)
    {duration : Option Float} {path : Option String} {folder' : RecordingFolder}
    (hrecover : recoverAudio env row.folderPath folder = (duration, path, folder')) :
    (recoverMeeting env ⟨some row, folder, db⟩).2 =
      ⟨some (if env.update then markMeetingCompleted env.now duration path row else row),
        folder', db⟩ := by
  simp only [recoverMeeting, hselect, hrecover]
  cases env.update <;> rfl

theorem recoverMeeting_of_not_select {world : RecoveryWorld} (hselect : env.select = false) :
    (recoverMeeting env world).2 = world := by
  simp [recoverMeeting, hselect]

/-- A recovery in which an encode succeeds. -/
theorem losesNothing_succeeds {db : Database} (hrow : row.status = .interrupted)
    (hparts : parts ≠ []) (hselect : env.select = true) (hdir : folder.checkpoints = some dir)
    (hown : OwnFiles parts dir) (h : Faithful env folder) (hencodes : Encodes env row folder)
    (hsucceeds : EncodeSucceeds env) :
    LosesNothing parts ⟨some row, folder, db⟩ (recoverMeeting env ⟨some row, folder, db⟩).2 ↔
      listedPcm env folder = fullPcm parts ∨ env.update = false ∧
        AllOnDisk parts folder.checkpoints ∧ KeepsCheckpoints parts env ∧
          NotShortened parts folder.audio (some (recordedAudio (listedPcm env folder))) := by
  obtain ⟨duration, path, hrecover⟩ := recoverAudio_of_succeeds hdir hown h hencodes hsucceeds
  rw [recoverMeeting_eq hselect hrecover]
  have hcomplete := complete_recordedAudio (listedPcm env folder) hparts
  have hshort : listedPcm env folder = fullPcm parts →
      NotShortened parts folder.audio (some (recordedAudio (listedPcm env folder))) :=
    fun hfull => notShortened_of_complete hparts (hcomplete.mpr hfull)
  cases env.update with
  | true =>
    simp only [if_true, losesNothing_marked hrow, audio_cleanupCheckpoints, hcomplete]
    simp only [reduceCtorEq, false_implies, and_true, Bool.true_eq_false, false_and, or_false]
    exact ⟨And.left, fun hfull => ⟨hfull, hshort hfull⟩⟩
  | false =>
    simp only [Bool.false_eq_true, if_false, losesNothing_unmarked hrow, Safe,
      audio_cleanupCheckpoints, hcomplete, allOnDisk_cleanupCheckpoints, true_and]
    constructor
    · rintro ⟨hfull | ⟨hdisk, hkeeps⟩, hkept⟩
      · exact Or.inl hfull
      · exact Or.inr ⟨hdisk, hkeeps, hkept⟩
    · rintro (hfull | ⟨hdisk, hkeeps, hkept⟩)
      · exact ⟨Or.inl hfull, hshort hfull⟩
      · exact ⟨Or.inr ⟨hdisk, hkeeps⟩, hkept⟩

/-- One in which it fails. -/
theorem losesNothing_fails {db : Database} (hrow : row.status = .interrupted)
    (hparts : parts ≠ []) (hselect : env.select = true) (hdir : folder.checkpoints = some dir)
    (h : Faithful env folder) (hencodes : Encodes env row folder) (hfails : ¬EncodeSucceeds env) :
    LosesNothing parts ⟨some row, folder, db⟩ (recoverMeeting env ⟨some row, folder, db⟩).2 ↔
      env.update = false ∧ (Complete parts (leftover env folder.audio) ∨
        AllOnDisk parts folder.checkpoints) ∧
          NotShortened parts folder.audio (leftover env folder.audio) := by
  obtain ⟨duration, hrecover⟩ := recoverAudio_of_fails hdir h hencodes hfails
  rw [recoverMeeting_eq hselect hrecover]
  cases env.update with
  | true => simp [not_losesNothing_marked hrow hparts]
  | false => simp [losesNothing_unmarked hrow, Safe]

/-- One that finds nothing to encode. -/
theorem losesNothing_not_encodes {db : Database} (hrow : row.status = .interrupted)
    (hparts : parts ≠ []) (hselect : env.select = true) (h : Faithful env folder)
    (hsound : ∀ dir, folder.checkpoints = some dir → OwnFiles parts dir)
    (hencodes : ¬Encodes env row folder) :
    LosesNothing parts ⟨some row, folder, db⟩ (recoverMeeting env ⟨some row, folder, db⟩).2 ↔
      env.update = false ∧ Safe parts folder := by
  obtain ⟨duration, hrecover⟩ := recoverAudio_of_not_encodes hsound h hencodes
  rw [recoverMeeting_eq hselect hrecover]
  cases env.update with
  | true => simp [not_losesNothing_marked hrow hparts]
  | false => simp [losesNothing_unmarked hrow, notShortened_self]

/-- Where nothing was saved nothing can be lost. -/
theorem losesNothing_of_nil {db : Database} (hrow : row.status = .interrupted)
    (h : Faithful env folder) (hsound : ∀ dir, folder.checkpoints = some dir → OwnFiles [] dir)
    (hnothing : folder.audio = none) :
    LosesNothing [] ⟨some row, folder, db⟩ (recoverMeeting env ⟨some row, folder, db⟩).2 := by
  rcases hselect : env.select with _ | _
  · rw [recoverMeeting_of_not_select hselect, losesNothing_unmarked hrow]
    exact ⟨Or.inl (Or.inl rfl), notShortened_self⟩
  have hencodes : ¬Encodes env row folder := by
    intro hencodes
    obtain ⟨dir, hdir⟩ := Option.ne_none_iff_exists'.mp hencodes.checkpoints
    exact not_encodes_of_nil hdir (hsound dir hdir) h hencodes
  obtain ⟨duration, hrecover⟩ := recoverAudio_of_not_encodes hsound h hencodes
  rw [recoverMeeting_eq hselect hrecover]
  cases env.update with
  | true =>
    rw [if_pos rfl, losesNothing_marked hrow]
    exact ⟨Or.inl rfl, notShortened_self, fun _ => hnothing⟩
  | false =>
    rw [if_neg (by simp), losesNothing_unmarked hrow]
    exact ⟨Or.inl (Or.inl rfl), notShortened_self⟩

/-- **When recovering a meeting loses no audio**, wherever finalizing it was interrupted and whatever
the database, the file system and ffmpeg do. -/
theorem losesNothing_iff {meetingFolder : String} {calls : List (List Sample × SaveOutcome)}
    (hreach : Reaches (recorded meetingFolder calls) st) (hrow : row.status = .interrupted)
    (h : Faithful env st.folder) (db : Database) :
    LosesNothing st.parts ⟨some row, st.folder, db⟩
        (recoverMeeting env ⟨some row, st.folder, db⟩).2 ↔
      RecoversAll st.parts env row st.folder := by
  have hsound := sound_of_reaches hreach
  unfold RecoversAll
  rcases eq_or_ne st.parts [] with hparts | hparts
  · refine iff_of_true ?_ (Or.inl hparts)
    rw [hparts]
    exact losesNothing_of_nil hrow h (hparts ▸ hsound.own) (hsound.nothing hparts)
  rw [or_iff_right hparts]
  rcases hselect : env.select with _ | _
  · rw [recoverMeeting_of_not_select hselect, losesNothing_unmarked hrow]
    simp [notShortened_self]
  by_cases hencodes : Encodes env row st.folder
  · obtain ⟨dir, hdir⟩ := Option.ne_none_iff_exists'.mp hencodes.checkpoints
    by_cases hsucceeds : EncodeSucceeds env
    · rw [losesNothing_succeeds hrow hparts hselect hdir (hsound.own dir hdir) h hencodes hsucceeds]
      cases env.update <;> simp [hencodes, hsucceeds]
    · rw [losesNothing_fails hrow hparts hselect hdir h hencodes hsucceeds]
      cases env.update <;> simp [hencodes, hsucceeds]
  · rw [losesNothing_not_encodes hrow hparts hselect h hsound.own hencodes]
    cases env.update <;> simp [hencodes]

/-- The checkpoints directory of a recording of one frame. -/
def memoDir : Directory :=
  Function.update (Function.update Directory.empty checkpointFormatFile (some (formatJson 48000 2)))
    (checkpointName 0) (some (castSlice [0, 1]))

/-- Its files. -/
def memoListing : List FileName := [checkpointFormatFile, checkpointName 0]

/-- It is finalized, and the app is gone before the checkpoints are removed. -/
def memoEncoded : Finalizing :=
  ⟨⟨[], 2880000, 1, "meeting/.checkpoints", 2⟩,
    ⟨.empty, some memoDir, some (recordedAudio (castSlice [0, 1]))⟩, .encoded, [[0, 1]]⟩

/-- Files are read at once. -/
def readWhole : Reading where
  cut bytes := if bytes = [] then [] else [bytes]
  cut_flatten bytes := by
    split
    · next h => simp [h]
    · simp
  cut_nonempty bytes := by
    split
    · simp
    · next h => simpa using h

theorem lists_memoDir : memoDir.Lists memoListing := by
  have hne := checkpointName_ne_formatFile 0
  refine ⟨by simp [memoListing, hne.symm], fun file => ?_⟩
  rcases eq_or_ne file (checkpointName 0) with rfl | hname
  · simp [memoListing, memoDir]
  rcases eq_or_ne file checkpointFormatFile with rfl | hformat
  · simp [memoListing, memoDir, hname]
  · simp [memoListing, memoDir, hname, hformat, Directory.empty]

theorem listCheckpointFiles_memoListing :
    listCheckpointFiles memoListing checkpointExtension = [checkpointName 0] := by
  have hfilter : memoListing.filter (isCheckpointFile checkpointExtension) = [checkpointName 0] := by
    decide
  rw [listCheckpointFiles, hfilter, List.mergeSort_singleton]

theorem reaches_memoEncoded :
    Reaches (recorded "meeting" [([0, 1], SaveOutcome.ok)]) memoEncoded := by
  have hpartial := checkpointName_ne_partialName 0 0
  have hformat := partialName_ne_formatFile 0
  let saved := (((fresh "meeting" 48000 2).2.write (partialName 0) (castSlice [0, 1]) .ok).2.rename
    (partialName 0) (checkpointName 0) .ok).2
  have hdir : saved = memoDir := by
    funext file
    rcases eq_or_ne file (partialName 0) with rfl | hpart
    · simp [saved, memoDir, Directory.rename, hpartial.symm, hformat, Directory.empty]
    rcases eq_or_ne file (checkpointName 0) with rfl | hname
    · simp [saved, memoDir, Directory.rename, Directory.write, hpart]
    · simp [saved, memoDir, Directory.rename, Directory.write, hpart, hname, fresh]
  let outcome : FinalizeOutcome := ⟨.ok memoListing,
    fun file => ⟨readWhole.cut ((memoDir file).getD []), none⟩, .ok (), true⟩
  have hread : ReadsDirectory memoDir outcome := by
    refine ⟨⟨memoListing, rfl, lists_memoDir⟩, fun file bytes hbytes => ?_⟩
    have hcut : outcome.read file = ⟨readWhole.cut bytes, none⟩ := by simp [outcome, hbytes]
    rw [hcut]
    exact ⟨rfl, readWhole.cut_flatten bytes, readWhole.cut_nonempty bytes⟩
  have hok : memoEncoded.saver.finalizeMerge "meeting/audio.mp4" outcome =
      (castSlice [0, 1], .ok ()) := by
    simp only [finalizeMerge, encodeCheckpoints, outcome, listCheckpointFiles_memoListing]
    rfl
  have hwritten : Reaches (recorded "meeting" [([0, 1], SaveOutcome.ok)]) _ :=
    .single (.write rfl (by decide) rfl .ok)
  have hspawned : Reaches (recorded "meeting" [([0, 1], SaveOutcome.ok)])
      ⟨memoEncoded.saver, ⟨.empty, some saved, none⟩, .encoding, [[0, 1]]⟩ :=
    (hwritten.tail (.rename rfl rfl)).tail (.spawn rfl (by decide) none)
  rw [hdir] at hspawned
  exact hspawned.tail (.encode rfl rfl "meeting/audio.mp4" hread hok)

/-- It is recovered; `exit` is what ffmpeg reports then, and if it fails it leaves an empty file. -/
def recovering (exit : Except String Unit) : RecoverEnv where
  select := true
  readDir _ := none
  listing := memoListing
  readFormat := none
  parseFormat bytes := if bytes = formatJson 48000 2 then some (48000, 2) else none
  stat _ := true
  reading := readWhole
  readError _ := none
  spawn := .ok ()
  exit := exit
  left _ := some (recordedAudio [])
  panic := none
  concat := .notRun "FFmpeg not found. Please install FFmpeg to recover audio."
  cleanup := none
  update := true
  now := "2026-01-01T10:00:00+00:00"

/-- Its row. -/
def memoRow : MeetingRow := ⟨"meeting-1", some "meeting", .interrupted, none, none, none⟩

/-- The rest of the database. -/
def memoDatabase : Database := ⟨["meeting-1"], [], []⟩

theorem faithful_recovering (exit : Except String Unit) :
    Faithful (recovering exit) memoEncoded.folder := by
  refine ⟨?_, by simp [recovering]⟩
  rintro dir hdir
  obtain rfl := Option.some.inj hdir
  exact lists_memoDir

theorem encodes_recovering (exit : Except String Unit) :
    Encodes (recovering exit) memoRow memoEncoded.folder := by
  refine ⟨nofun, nofun, fun _ _ => rfl, ?_⟩
  rw [recovering, listCheckpointFiles_memoListing]
  simp

theorem losesNothing_memo : LosesNothing memoEncoded.parts
    ⟨some memoRow, memoEncoded.folder, memoDatabase⟩
      (recoverMeeting (recovering (.ok ())) ⟨some memoRow, memoEncoded.folder, memoDatabase⟩).2 := by
  refine (losesNothing_iff reaches_memoEncoded rfl (faithful_recovering _) memoDatabase).mpr
    (Or.inr ⟨fun _ _ => ⟨encodes_recovering _, ⟨rfl, rfl, fun _ _ => rfl, rfl⟩, ?_⟩, nofun, nofun,
      ?_⟩)
  · simp only [listedPcm, recovering, listCheckpointFiles_memoListing]
    decide +kernel
  · rintro (hselect | ⟨hupdate, -⟩)
    · cases hselect
    · cases hupdate

/-- A disk that is full when it is recovered: the complete `audio.mp4` is gone, and the meeting is
completed. -/
theorem not_losesNothing_diskFull :
    ¬∀ st, Reaches (recorded "meeting" [([0, 1], SaveOutcome.ok)]) st →
      ∀ env, Faithful env st.folder →
        LosesNothing st.parts ⟨some memoRow, st.folder, memoDatabase⟩
          (recoverMeeting env ⟨some memoRow, st.folder, memoDatabase⟩).2 := by
  intro h
  have hdisk := faithful_recovering (.error "No space left on device")
  have hlost := h memoEncoded reaches_memoEncoded _ hdisk
  have hfails : ¬EncodeSucceeds (recovering (.error "No space left on device")) := by
    intro hsucceeds
    cases hsucceeds.exit
  have hunmarked := (losesNothing_fails rfl (by simp [memoEncoded]) rfl rfl hdisk
    (encodes_recovering _) hfails).mp hlost
  cases hunmarked.1

end Recovery

end MeetilyLocal
