import MeetilyLocal.Audio.IncrementalSaver
import MeetilyLocal.Database.Transcripts

/-!
# Recovering an interrupted meeting

The embedding of `RecoveryState::recover` (`recovery.rs` of the desktop app), of the recovery half of
`audio/incremental_saver.rs` and of `mark_meeting_completed`. A meeting that an unclean shutdown left
behind has a row that says so, a transcript in the database, and a folder with the checkpoints of
its audio. Recovery encodes the checkpoints into `audio.mp4`, removes them, and marks the row as
completed; except for the first and the last of its accesses to the database, it goes on whatever
fails.

An `audio.mp4` is the PCM audio that it holds. What the file system and ffmpeg do is given from
outside (`RecoverEnv`).
-/

namespace MeetilyLocal

/-- `meetings.status` -/
inductive MeetingStatus : Type where
  /-- `"recording"` -/
  | recording : MeetingStatus
  /-- `"completed"` -/
  | completed : MeetingStatus
  /-- `"interrupted"` -/
  | interrupted : MeetingStatus
  deriving DecidableEq

/-- The row of a meeting, as far as its recording is concerned. -/
structure MeetingRow : Type where
  /-- primary key -/
  id : String
  /-- path of the meeting folder -/
  folderPath : Option String
  /-- what became of the recording -/
  status : MeetingStatus
  /-- when it was completed -/
  completedAt : Option String
  /-- its duration -/
  durationSeconds : Option Float
  /-- path of its audio -/
  audioPath : Option String

/-- An encoded audio file: what it was encoded from. -/
structure AudioFile : Type where
  /-- sample rate -/
  sampleRate : ℕ
  /-- number of channels -/
  channels : ℕ
  /-- the interleaved samples -/
  pcm : List UInt8
  deriving DecidableEq

/-- A meeting folder, as far as it is recorded into. -/
structure RecordingFolder : Type where
  /-- the files in it -/
  files : Directory
  /-- the checkpoints directory -/
  checkpoints : Option Directory
  /-- `audio.mp4` -/
  audio : Option AudioFile

/-- What recovery reads and changes. -/
structure RecoveryWorld : Type where
  /-- the row of the meeting -/
  row : Option MeetingRow
  /-- the folder that it names -/
  folder : RecordingFolder
  /-- the database beside that row -/
  db : Database

/-- How a file is cut up by successive reads. -/
structure Reading : Type where
  /-- the reads -/
  cut : List UInt8 → List (List UInt8)
  /-- together they are the file -/
  cut_flatten : ∀ bytes, (cut bytes).flatten = bytes
  /-- a read that returns nothing would be the end of the file -/
  cut_nonempty : ∀ bytes, ∀ read ∈ cut bytes, read ≠ []

/-- How merging legacy checkpoints goes. -/
inductive ConcatOutcome : Type where
  /-- it does not get to run ffmpeg -/
  | notRun : String → ConcatOutcome
  /-- ffmpeg fails -/
  | failed : String → ConcatOutcome
  /-- ffmpeg writes that file -/
  | merged : AudioFile → ConcatOutcome

/-- What the outside decides about a recovery. -/
structure RecoverEnv : Type where
  /-- the `SELECT` of the row is executed -/
  select : Bool
  /-- why the checkpoints directory is not read: to probe it, for PCM and for legacy checkpoints -/
  readDir : ℕ → Option String
  /-- its listing -/
  listing : List FileName
  /-- why the sidecar is not read -/
  readFormat : Option String
  /-- `serde_json::from_slice::<CheckpointFormat>`: the sample rate and the number of channels -/
  parseFormat : List UInt8 → Option (ℕ × ℕ)
  /-- the metadata of a file are read -/
  stat : FileName → Bool
  /-- how files are read -/
  reading : Reading
  /-- after how many bytes, and why, a file is not read to its end -/
  readError : FileName → Option (ℕ × String)
  /-- ffmpeg is found and starts -/
  spawn : Except String Unit
  /-- what it reports -/
  exit : Except String Unit
  /-- what it leaves of `audio.mp4` if it does not report success -/
  left : Option AudioFile → Option AudioFile
  /-- the message if the task that feeds it panics -/
  panic : Option String
  /-- how merging legacy checkpoints goes -/
  concat : ConcatOutcome
  /-- `remove_dir_all`: none if the directory is removed, else which files it leaves there -/
  cleanup : Option (FileName → Bool)
  /-- the `UPDATE` of the row is executed -/
  update : Bool
  /-- `Utc::now()` -/
  now : String

/-- How far audio recovery got. -/
inductive RecoveryStatus : Type where
  /-- `"success"` -/
  | success : RecoveryStatus
  /-- `"failed"` -/
  | failed : RecoveryStatus
  /-- `"none"` -/
  | none : RecoveryStatus
  deriving DecidableEq

/-- Audio recovery status for the transcript recovery feature. -/
structure AudioRecoveryStatus : Type where
  /-- how far it got -/
  status : RecoveryStatus
  /-- number of checkpoints -/
  chunkCount : ℕ
  /-- their duration -/
  estimatedDurationSeconds : Float
  /-- path of the audio -/
  audioFilePath : Option String
  /-- a message -/
  message : String

namespace Recovery

/-! ## Encoding the checkpoints -/

/-- The layout of the checkpoints: the sidecar's, or the pipeline's stereo at 48 kHz. -/
def readOrDefault (env : RecoverEnv) (dir : Directory) : ℕ × ℕ :=
  let read := if env.readFormat.isSome then none else dir checkpointFormatFile
  match read.bind env.parseFormat with
  | some (sampleRate, channels) =>
    if 0 < sampleRate ∧ 0 < channels then (sampleRate, channels) else (48000, 2)
  | none => (48000, 2)

/-- The legacy extension of checkpoint files. -/
def legacyCheckpointExtension : FileName := ['m', 'p', '4']

/-- What reading a file returns. -/
def fileReads (env : RecoverEnv) (dir : Directory) (file : FileName) : FileReads :=
  match dir file with
  | none => ⟨[], some "No such file or directory (os error 2)"⟩
  | some bytes =>
    match env.readError file with
    | none => ⟨env.reading.cut bytes, none⟩
    | some (n, message) => ⟨env.reading.cut (bytes.take n), some message⟩

/-- `encode_pcm_files_to_aac`: ffmpeg replaces `audio.mp4` by what it is fed, or fails. -/
def encodeFiles (env : RecoverEnv) (dir : Directory) (files : List FileName) (format : ℕ × ℕ)
    (audio : Option AudioFile) : Except String Unit × Option AudioFile :=
  match env.spawn with
  | .error message => (.error message, audio)
  | .ok () =>
    match encodePcmFilesToAac (files.map (fileReads env dir)) format.2 env.exit with
    | (written, .ok ()) => (.ok (), some ⟨format.1, format.2, written⟩)
    | (_, .error message) => (.error message, env.left audio)

/-- Total PCM duration of a set of checkpoint files, in seconds. -/
def pcmFilesDurationSecs (env : RecoverEnv) (dir : Directory) (files : List FileName)
    (format : ℕ × ℕ) : Float :=
  let bytes := ((files.filter env.stat).map fun file => ((dir file).getD []).length).sum
  let bytesPerSecond := Float.ofNat format.1 * Float.ofNat format.2 * 4
  if bytesPerSecond > 0 then Float.ofNat bytes / bytesPerSecond else 0

/-- What is reported if there is nothing to recover. -/
def nothingFound (message : String) : AudioRecoveryStatus := ⟨.none, 0, 0, none, message⟩

/-- Recover the audio from checkpoint files: PCM checkpoints are encoded, legacy ones merged. -/
def recoverAudioFromCheckpoints (env : RecoverEnv) (path : String) (folder : RecordingFolder) :
    Except String AudioRecoveryStatus × RecordingFolder :=
  match folder.checkpoints with
  | none => (.ok (nothingFound "No audio checkpoints found"), folder)
  | some dir =>
    match env.readDir 1, env.readDir 2 with
    | some message, _ => (.error ("Failed to read checkpoints directory: " ++ message), folder)
    | none, some message => (.error ("Failed to read checkpoints directory: " ++ message), folder)
    | none, none =>
      let pcmFiles := listCheckpointFiles env.listing checkpointExtension
      let legacyFiles := listCheckpointFiles env.listing legacyCheckpointExtension
      let output := path ++ "/audio.mp4"
      if pcmFiles.isEmpty && legacyFiles.isEmpty then
        (.ok (nothingFound "No audio checkpoint files found"), folder)
      else if !pcmFiles.isEmpty then
        let format := readOrDefault env dir
        let duration := pcmFilesDurationSecs env dir pcmFiles format
        match env.panic with
        | some message =>
          (.error ("Recovery encode task panicked: " ++ message),
            { folder with audio := env.left folder.audio })
        | none =>
          match encodeFiles env dir pcmFiles format folder.audio with
          | (.ok (), audio) =>
            (.ok ⟨.success, pcmFiles.length, duration, some output,
              "Successfully recovered " ++ toString pcmFiles.length ++ " audio checkpoints"⟩,
              { folder with audio := audio })
          | (.error message, audio) =>
            (.ok ⟨.failed, pcmFiles.length, duration, none, "FFmpeg failed: " ++ message⟩,
              { folder with audio := audio })
      else
        let duration := Float.ofNat legacyFiles.length * 30
        match env.concat with
        | .notRun message => (.error message, folder)
        | .failed message =>
          (.ok ⟨.failed, legacyFiles.length, duration, none, "FFmpeg failed: " ++ message⟩,
            { folder with audio := env.left folder.audio })
        | .merged audio =>
          (.ok ⟨.success, legacyFiles.length, duration, some output,
            "Successfully recovered " ++ toString legacyFiles.length ++ " audio chunks"⟩,
            { folder with audio := some audio })

/-- Check if a meeting folder has audio checkpoint files. -/
def hasAudioCheckpoints (env : RecoverEnv) (folder : RecordingFolder) : Except String Bool :=
  match folder.checkpoints, env.readDir 0 with
  | none, _ => .ok false
  | some _, some message => .error ("Failed to read checkpoints directory: " ++ message)
  | some _, none => .ok (env.listing.any fun file =>
      file.extension == some checkpointExtension || file.extension == some legacyCheckpointExtension)

/-- The files of a directory that are kept. -/
def keepFiles (kept : FileName → Bool) (dir : Directory) : Directory :=
  fun file => if kept file then dir file else none

/-- Clean up checkpoint files after a successful recovery. -/
def cleanupCheckpoints (env : RecoverEnv) (folder : RecordingFolder) : RecordingFolder :=
  match env.cleanup with
  | none => { folder with checkpoints := none }
  | some kept => { folder with checkpoints := folder.checkpoints.map (keepFiles kept) }

/-! ## The meeting -/

/-- What `recover` does about the audio: the duration and the path for the row, and the folder. -/
def recoverAudio (env : RecoverEnv) (folderPath : Option String) (folder : RecordingFolder) :
    Option Float × Option String × RecordingFolder :=
  match folderPath with
  | none => (none, none, folder)
  | some path =>
    match hasAudioCheckpoints env folder with
    | .ok true =>
      match recoverAudioFromCheckpoints env path folder with
      | (.error _, folder) => (none, none, folder)
      | (.ok status, folder) =>
        (some status.estimatedDurationSeconds, status.audioFilePath,
          if status.status = .success then cleanupCheckpoints env folder else folder)
    | _ => (none, none, folder)

/-- `mark_meeting_completed`: all of these columns are set, whatever they were. -/
def markMeetingCompleted (now : String) (durationSeconds : Option Float)
    (audioPath : Option String) (row : MeetingRow) : MeetingRow :=
  { row with
    status := .completed
    completedAt := some now
    durationSeconds := durationSeconds
    audioPath := audioPath }

/-- The task that `recover` spawns: recover what audio there is, and mark the row as completed. -/
def recoverMeeting (env : RecoverEnv) (world : RecoveryWorld) :
    Except String Bool × RecoveryWorld :=
  if !env.select then (.error TranscriptsRepository.sqlError, world)
  else
    match world.row with
    | none => (.error "Meeting not found", world)
    | some row =>
      let (durationSeconds, audioPath, folder) := recoverAudio env row.folderPath world.folder
      if !env.update then (.error TranscriptsRepository.sqlError, { world with folder := folder })
      else (.ok true,
        { world with
          row := some (markMeetingCompleted env.now durationSeconds audioPath row)
          folder := folder })

/-- The recovery dialog. -/
structure RecoveryState : Type where
  /-- the meetings that are offered -/
  rows : List String
  /-- the one that is being recovered or deleted -/
  busy : Option String
  /-- what went wrong -/
  error : Option String

/-- `RecoveryState::recover`, with what it does when its task has ended. -/
def RecoveryState.recover (env : RecoverEnv) (pool : Bool) (meetingId : String)
    (state : RecoveryState) (world : RecoveryWorld) : RecoveryState × RecoveryWorld :=
  if state.busy.isSome then (state, world)
  else if !pool then ({ state with busy := none, error := some "Database not ready" }, world)
  else
    match recoverMeeting env world with
    | (.ok _, world) =>
      ({ rows := state.rows.filter (· != meetingId), busy := none, error := none }, world)
    | (.error message, world) => ({ state with busy := none, error := some message }, world)

end Recovery

end MeetilyLocal
