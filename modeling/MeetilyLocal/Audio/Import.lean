import MeetilyLocal.Audio.IncrementalSaver
import MeetilyLocal.Audio.TranscriptsJson
import MeetilyLocal.Database.Transcripts
import MeetilyLocal.Library.Exits

/-!
# Importing an audio file

The embedding of `run_import` (`audio/import.rs`), with `create_meeting_folder`
(`audio/audio_processing.rs`), the loops of `audio/decoder.rs` and `audio/vad.rs` that report their
progress, and `run_batch_transcription` (`audio/common.rs`). An import copies the file into a new
meeting folder, decodes and resamples it, detects the speech in it, transcribes that, and saves the
meeting. Each of these can fail, and between them, or from a progress report, it can be cancelled.

What happens to the samples, and what the file system, the Whisper engine and the database do, is
given from outside (`ImportEnv`); so is what the flag of the cancellation reads at each place where
it is looked at (`CancelPoint`).
-/

namespace MeetilyLocal

open Json Exits

/-- A complete speech segment that was detected. -/
structure SpeechSegment : Type where
  /-- its samples, at 16 kHz -/
  samples : List Sample
  /-- where it starts, in milliseconds -/
  startTimestampMs : Float
  /-- where it ends -/
  endTimestampMs : Float

/-- The transcript of a segment of a batch. -/
structure BatchTranscript : Type where
  /-- what was said -/
  text : String
  /-- where it starts, in milliseconds -/
  startMs : Float
  /-- where it ends -/
  endMs : Float
  /-- speaker label -/
  speaker : Option String
  /-- the voice profile of the speaker -/
  voiceProfileId : Option String
  /-- its position in the output of the batch -/
  sequenceId : UInt64

/-- Decoded audio data from a file. -/
structure DecodedAudio : Type where
  /-- raw audio samples, interleaved -/
  samples : List Sample
  /-- sample rate of the decoded audio -/
  sampleRate : ℕ
  /-- number of channels -/
  channels : ℕ
  /-- duration in seconds -/
  durationSeconds : Float

/-- What an import changes: the recordings folder and the database. -/
structure ImportWorld : Type where
  /-- the meeting folders, by name -/
  recordings : List (FileName × MeetingFolder)
  /-- the database -/
  db : Database

namespace ImportWorld

/-- The names that are taken. -/
def names (world : ImportWorld) : List FileName := world.recordings.map Prod.fst

/-- An empty folder is added. -/
def createDir (world : ImportWorld) (name : FileName) : ImportWorld :=
  { world with recordings := (name, .empty) :: world.recordings }

/-- A folder is removed, with what is in it. -/
def removeDir (world : ImportWorld) (name : FileName) : ImportWorld :=
  { world with recordings := world.recordings.filter fun entry => entry.1 != name }

/-- The files of a folder change. -/
def modifyFolder (world : ImportWorld) (name : FileName) (f : MeetingFolder → MeetingFolder) :
    ImportWorld :=
  { world with recordings := world.recordings.map fun entry =>
      if entry.1 = name then (entry.1, f entry.2) else entry }

/-- A meeting folder. -/
def folder (world : ImportWorld) (name : FileName) : MeetingFolder :=
  (world.recordings.lookup name).getD .empty

end ImportWorld

/-! ## The outside -/

/-- A place at which `IMPORT_CANCELLED` is read. -/
inductive CancelPoint : Type where
  /-- before the meeting folder is created -/
  | begun : CancelPoint
  /-- after the file was copied -/
  | copied : CancelPoint
  /-- in the progress report after that many packets -/
  | decoding : ℕ → CancelPoint
  /-- after it was decoded -/
  | decoded : CancelPoint
  /-- in the progress report after that many chunks were resampled -/
  | resampling : ℕ → CancelPoint
  /-- after it was resampled -/
  | resampled : CancelPoint
  /-- in the progress report after that many chunks were searched for speech -/
  | detecting : ℕ → CancelPoint
  /-- after speech was detected -/
  | detected : CancelPoint
  /-- at the start of the batch -/
  | batch : CancelPoint
  /-- before the segment of that number is transcribed -/
  | segment : ℕ → CancelPoint
  /-- at the end of the batch -/
  | transcribed : CancelPoint
  /-- after the batch has failed -/
  | failed : CancelPoint

/-- What runs off the async runtime. -/
inductive BlockingTask : Type where
  | copy : BlockingTask
  | decode : BlockingTask
  | resample : BlockingTask
  | vad : BlockingTask

/-- What decodes a file. -/
structure Decoder : Type where
  /-- the file is converted if need be, opened, and has a track that can be decoded -/
  opened : Except String Unit
  /-- the samples of each packet of the track, none if it is not decoded -/
  packets : List (Option (List Sample))
  /-- how many samples there should be, if that is known -/
  expectedSamples : Option ℕ
  /-- sample rate of the track -/
  sampleRate : ℕ
  /-- number of channels -/
  channels : ℕ

/-- What brings audio to 16 kHz mono. -/
structure WhisperFormat : Type where
  /-- `audio_to_mono` -/
  audioToMono : List Sample → ℕ → List Sample
  /-- `normalize_audio_samples` -/
  normalizeAudioSamples : List Sample → List Sample
  /-- `resample` of each chunk of a large file -/
  resampleChunks : List Sample → ℕ → List (Except String (List Sample))
  /-- a chunk is put behind the output, cross-faded with the end of it -/
  crossFade : List Sample → List Sample → List Sample
  /-- `resample_audio` -/
  resampleAudio : List Sample → ℕ → Except String (List Sample)
  /-- every sample is clamped to the valid range -/
  clamp : List Sample → List Sample

/-- What detects speech. -/
structure VadProcessor : Type where
  /-- `ContinuousVadProcessor::new` -/
  new : Except String Unit
  /-- `process_audio`, for the chunk of that number -/
  processAudio : ℕ → List Sample → Except String (List SpeechSegment)
  /-- `flush` -/
  flush : Except String (List SpeechSegment)

/-- The Whisper engine. -/
structure WhisperView : Type where
  /-- the loaded model -/
  currentModel : Option String
  /-- a live recording holds the lease -/
  liveLeased : Bool
  /-- it lets go of it in time -/
  becomesFree : Bool
  /-- `load_model` -/
  loadModel : String → Except String Unit

/-- What the outside decides about an import. -/
structure ImportEnv : Type where
  /-- what `IMPORT_CANCELLED` reads -/
  cancelled : CancelPoint → Bool
  /-- the message of a task that panics -/
  panics : BlockingTask → Option String
  /-- the contents of the source file, if it exists -/
  source : Option (List UInt8)
  /-- the time, as it stands in the name of a folder -/
  timestamp : FileName
  /-- the message if the folder is not created -/
  createDir : Option String
  /-- how copying goes -/
  copy : WriteOutcome
  /-- `remove_dir_all`: none if the folder is removed, else which files it leaves there -/
  removeDir : Option (FileName → Bool)
  /-- the decoder -/
  decoder : Decoder
  /-- the conversion to 16 kHz mono -/
  whisperFormat : WhisperFormat
  /-- the speech detector -/
  vad : VadProcessor
  /-- the Whisper engine, if it is initialized -/
  whisper : Option WhisperView
  /-- `get_transcript_config`: the provider and the model -/
  transcriptConfig : Except String (Option (String × String))
  /-- `split_segment_at_silence` -/
  splitSegmentAtSilence : SpeechSegment → List SpeechSegment
  /-- `transcribe_audio_with_confidence`, for the segment of that number -/
  transcribe : ℕ → SpeechSegment → Except String (String × Float32)
  /-- `is_likely_hallucination` -/
  isLikelyHallucination : String → Float32 → Bool
  /-- the label and voice profile that the diarizer gives the segment of that number, if any -/
  diarize : ℕ → SpeechSegment → Option (String × Option String)
  /-- `Uuid::new_v4()`, for the segment of that number -/
  uuid : ℕ → String
  /-- `Utc::now().to_rfc3339()` -/
  now : String
  /-- the database -/
  sql : SqlEnv
  /-- the JSON codec -/
  codec : JsonCodec
  /-- the time of a file written -/
  modified : ℕ
  /-- how writing `transcripts.json` goes -/
  transcriptsWrite : WriteOutcome
  /-- how renaming it goes -/
  transcriptsRename : RenameOutcome
  /-- how writing `metadata.json` goes -/
  metadataWrite : WriteOutcome
  /-- how renaming it goes -/
  metadataRename : RenameOutcome

/-- What is imported. -/
structure ImportRequest : Type where
  /-- path of the source file -/
  sourcePath : String
  /-- its name -/
  sourceName : FileName
  /-- title of the meeting -/
  title : String
  /-- the requested model -/
  model : Option String
  /-- there is a database -/
  pool : Bool

/-- Result of an import. -/
structure ImportResult : Type where
  /-- the new meeting -/
  meetingId : String
  /-- its title -/
  title : String
  /-- number of segments -/
  segmentsCount : ℕ
  /-- duration of the audio -/
  durationSeconds : Float

namespace Import

/-! ## The meeting folder -/

/-- `char::is_control` -/
def isControl (c : Char) : Bool := c.toNat < 32 || (127 ≤ c.toNat && c.toNat < 160)

/-- Sanitize a filename to be safe for filesystem use. -/
def sanitizeFilename (name : List Char) : FileName :=
  trim (name.map fun c =>
    if c ∈ ['/', '\\', ':', '*', '?', '"', '<', '>', '|'] ∨ isControl c then '_' else c)

/-- The name that is tried after so many that were taken. -/
def folderCandidate (base : FileName) : ℕ → FileName
  | 0 => base
  | suffix + 1 => base ++ '_' :: Nat.toDigits 10 (suffix + 1)

/-- The first of them that is free. -/
def freeFolder (names : List FileName) (base : FileName) : FileName :=
  (((List.range (names.length + 1)).map (folderCandidate base)).find? (· ∉ names)).getD base

/-- `create_meeting_folder`, without a checkpoints directory: a new folder, whose name tells the
meeting and the time. -/
def createMeetingFolder (env : ImportEnv) (meetingName : String) :
    EStateM String ImportWorld FileName := fun world =>
  let base := sanitizeFilename meetingName.toList ++ '_' :: env.timestamp
  let meetingFolder := freeFolder world.names base
  match env.createDir with
  | none => .ok meetingFolder (world.createDir meetingFolder)
  | some message => .error message world

/-- `let _ = remove_dir_all(&meeting_folder)` -/
def removeMeetingFolder (env : ImportEnv) (meetingFolder : FileName) :
    EStateM String ImportWorld Unit := fun world =>
  match env.removeDir with
  | none => .ok () (world.removeDir meetingFolder)
  | some kept => .ok () (world.modifyFolder meetingFolder fun folder =>
      ⟨fun file => if kept file then folder.files file else none, folder.modified⟩)

/-- A check for cancellation once there is a folder. -/
def checkCancelled (env : ImportEnv) (point : CancelPoint) (meetingFolder : FileName) :
    EStateM String ImportWorld Unit :=
  if env.cancelled point then do
    removeMeetingFolder env meetingFolder
    throw "Import cancelled"
  else pure ()

/-- What a blocking task returns to the one that awaits it. -/
def joined {α : Type} (env : ImportEnv) (task : BlockingTask) (message : String)
    (result : Except String α) : Except String α :=
  match env.panics task with
  | some panic => .error (message ++ panic)
  | none => result

/-- The name of the copy. -/
def destFilename (sourceName : FileName) : FileName :=
  "audio.".toList ++ sourceName.extension.getD "mp4".toList

/-- Copy the audio file to the meeting folder. -/
def copyAudio (env : ImportEnv) (request : ImportRequest) (meetingFolder : FileName) :
    EStateM String ImportWorld Unit := fun world =>
  match env.panics .copy with
  | some panic => .error ("Copy task join error: " ++ panic) world
  | none =>
    let copied := (world.folder meetingFolder).write env.modified (destFilename request.sourceName)
      (env.source.getD []) env.copy
    let world := world.modifyFolder meetingFolder fun _ => copied.2
    match copied.1 with
    | .ok () => .ok () world
    | .error message => .error ("Failed to copy audio file: " ++ message) world

/-! ## From the file to its speech -/

/-- How much of a file is decoded, in percent. -/
def decodedPercent (decoded expected : ℕ) : ℕ :=
  (Float.ofNat decoded / Float.ofNat expected * 100).toUInt32.toNat

/-- The progress that is reported after a packet: at every 10 percent, or at every 200 packets if
there is no telling. -/
def decodeUpdate (expected : Option ℕ) (decoded lastProgress packetCount : ℕ) : Option ℕ :=
  match expected with
  | some expected =>
    let progress := decodedPercent decoded expected
    if lastProgress + 10 ≤ progress ∧ progress ≤ 100 then some progress else none
  | none => if packetCount % 200 = 0 then some lastProgress else none

/-- The loop over the packets. One that is not decoded is passed over; a report that finds the flag
set ends it. -/
def decodePackets (env : ImportEnv) : ℕ → ℕ → List Sample → List (Option (List Sample)) →
    Except String (List Sample)
  | _, _, samples, [] => .ok samples
  | lastProgress, count, samples, none :: packets =>
    decodePackets env lastProgress count samples packets
  | lastProgress, count, samples, some packet :: packets =>
    let samples := samples ++ packet
    match decodeUpdate env.decoder.expectedSamples samples.length lastProgress (count + 1) with
    | none => decodePackets env lastProgress (count + 1) samples packets
    | some progress =>
      if env.cancelled (.decoding (count + 1)) then .error "Decoding cancelled"
      else decodePackets env progress (count + 1) samples packets

/-- `decode_audio_file_with_progress` -/
def decodeAudioFileWithProgress (env : ImportEnv) : Except String DecodedAudio := do
  env.decoder.opened
  let samples ← decodePackets env 0 0 [] env.decoder.packets
  if samples.isEmpty then throw "No audio samples decoded from file"
  let durationSeconds :=
    Float.ofNat (samples.length / env.decoder.channels) / Float.ofNat env.decoder.sampleRate
  return ⟨samples, env.decoder.sampleRate, env.decoder.channels, durationSeconds⟩

/-- The loop over the resampled chunks. -/
def mergeChunks (env : ImportEnv) : ℕ → List Sample → List (Except String (List Sample)) →
    Except String (List Sample)
  | _, output, [] => .ok output
  | _, _, .error message :: _ => .error message
  | k, output, .ok resampled :: chunks =>
    if env.cancelled (.resampling (k + 1)) then .error "Resampling cancelled"
    else mergeChunks env (k + 1) (env.whisperFormat.crossFade output resampled) chunks

/-- Above that many samples a file is large. -/
def largeFileThreshold : ℕ := 14400000

/-- `to_whisper_format_with_progress` -/
def toWhisperFormatWithProgress (env : ImportEnv) (decoded : DecodedAudio) :
    Except String (List Sample) := do
  let format := env.whisperFormat
  let monoSamples := format.normalizeAudioSamples <|
    if 1 < decoded.channels then format.audioToMono decoded.samples decoded.channels
    else decoded.samples
  if decoded.sampleRate = 16000 then return monoSamples
  let resampled ←
    if largeFileThreshold < monoSamples.length then
      mergeChunks env 0 [] (format.resampleChunks monoSamples decoded.sampleRate)
    else match format.resampleAudio monoSamples decoded.sampleRate with
      | .ok resampled => .ok resampled
      | .error message => .error ("Resampling to 16000Hz failed: " ++ message)
  return format.clamp resampled

/-- Above that many samples speech is detected in chunks. -/
def vadLargeFileThreshold : ℕ := 960000

/-- The size of these chunks. -/
def vadChunkSize : ℕ := 160000

/-- The chunks of a recording. -/
def vadChunks (samples : List Sample) : List (List Sample) :=
  (List.range ((samples.length + vadChunkSize - 1) / vadChunkSize)).map fun k =>
    (samples.drop (k * vadChunkSize)).take vadChunkSize

/-- The loop over the chunks; it reports at every 5 percent. -/
def detectChunks (env : ImportEnv) (total : ℕ) : ℕ → ℕ → ℕ → List SpeechSegment →
    List (List Sample) → Except String (List SpeechSegment)
  | _, _, _, segments, [] => .ok segments
  | k, processed, lastProgress, segments, chunk :: chunks =>
    match env.vad.processAudio k chunk with
    | .error message => .error message
    | .ok found =>
      let segments := segments ++ found
      let processed := processed + chunk.length
      let progress := processed * 100 / total
      if lastProgress + 5 ≤ progress then
        if env.cancelled (.detecting (k + 1)) then .error "VAD processing cancelled"
        else detectChunks env total (k + 1) processed progress segments chunks
      else detectChunks env total (k + 1) processed lastProgress segments chunks

/-- `get_speech_chunks_with_progress` -/
def getSpeechChunksWithProgress (env : ImportEnv) (samples : List Sample) :
    Except String (List SpeechSegment) := do
  env.vad.new
  let segments ←
    if vadLargeFileThreshold < samples.length then
      detectChunks env samples.length 0 0 0 [] (vadChunks samples)
    else env.vad.processAudio 0 samples
  return segments ++ (← env.vad.flush)

/-- What `run_import` makes of an error of the speech detection. -/
def detectSpeech (env : ImportEnv) (samples : List Sample) : Except String (List SpeechSegment) :=
  joined env .vad "VAD task panicked: " <|
    match getSpeechChunksWithProgress env samples with
    | .ok segments => .ok segments
    | .error message => .error ("VAD processing failed: " ++ message)

/-! ## From the speech to its transcripts -/

/-- `DEFAULT_WHISPER_MODEL` -/
def defaultWhisperModel : String := "large-v3-turbo-q5_0"

/-- Get the configured Whisper model, or the default if another provider is configured. -/
def getConfiguredModel (env : ImportEnv) (pool : Bool) : Except String String :=
  if !pool then .error "App state not available"
  else match env.transcriptConfig with
    | .error message => .error ("Failed to query config: " ++ message)
    | .ok none => .ok defaultWhisperModel
    | .ok (some (provider, model)) =>
      .ok (if provider = "localWhisper" ∨ provider = "whisper" then model else defaultWhisperModel)

/-- Get or initialize the Whisper engine. A loaded model is not replaced while a live recording
holds the lease. -/
def getOrInitWhisper (env : ImportEnv) (pool : Bool) (requested : Option String) :
    Except String Unit := do
  let some engine := env.whisper | throw "Whisper engine not initialized"
  let target ← match requested with
    | some model => .ok model
    | none => getConfiguredModel env pool
  if engine.currentModel = some target then return
  if engine.liveLeased then
    if engine.currentModel.isSome then return
    if !engine.becomesFree then
      throw "Timed out waiting for live recording to release the Whisper engine"
  match engine.loadModel target with
  | .ok () => return
  | .error message => throw ("Failed to load model '" ++ target ++ "': " ++ message)

/-- The longest segment that is transcribed in one piece: 25 seconds. -/
def maxSegmentSamples : ℕ := 25 * 16000

/-- The loop over the segments: one that is short, or whose text is empty or a hallucination, is
passed over. -/
def transcribeSegments (env : ImportEnv) : ℕ → List BatchTranscript → List SpeechSegment →
    Except String (List BatchTranscript)
  | _, transcripts, [] => if env.cancelled .transcribed then .error "Cancelled" else .ok transcripts
  | i, transcripts, segment :: segments =>
    if env.cancelled (.segment i) then .error "Cancelled"
    else if segment.samples.length < 1600 then transcribeSegments env (i + 1) transcripts segments
    else match env.transcribe i segment with
      | .error message =>
        .error ("Whisper transcription failed on segment " ++ toString i ++ ": " ++ message)
      | .ok (text, confidence) =>
        if env.isLikelyHallucination text confidence || (trim text.toList).isEmpty then
          transcribeSegments env (i + 1) transcripts segments
        else
          let label := env.diarize i segment
          transcribeSegments env (i + 1)
            (transcripts ++ [⟨text, segment.startTimestampMs, segment.endTimestampMs,
              label.map Prod.fst, label.bind Prod.snd, .ofNat transcripts.length⟩]) segments

/-- `run_batch_transcription` -/
def runBatchTranscription (env : ImportEnv) (speechSegments : List SpeechSegment) :
    Except String (List BatchTranscript) :=
  if env.cancelled .batch then .error "Cancelled"
  else transcribeSegments env 0 [] <| speechSegments.flatMap fun segment =>
    if maxSegmentSamples < segment.samples.length then env.splitSegmentAtSilence segment
    else [segment]

/-- The batch, if there is anything to transcribe. -/
def batchResult (env : ImportEnv) (speechSegments : List SpeechSegment) :
    Except String (List BatchTranscript) :=
  if speechSegments.isEmpty then .ok [] else runBatchTranscription env speechSegments

/-- The batch, and what follows if it fails. -/
def transcribeAll (env : ImportEnv) (speechSegments : List SpeechSegment)
    (meetingFolder : FileName) : EStateM String ImportWorld (List BatchTranscript) :=
  match batchResult env speechSegments with
  | .ok transcripts => pure transcripts
  | .error message => do
    removeMeetingFolder env meetingFolder
    throw (if env.cancelled .failed then "Import cancelled" else message)

/-- `create_transcript_segments` -/
def createTranscriptSegments (env : ImportEnv) (transcripts : List BatchTranscript) :
    List TranscriptSegment :=
  transcripts.zipIdx.map fun (t, i) =>
    { id := "transcript-" ++ env.uuid i
      text := String.ofList (trim t.text.toList)
      timestamp := some env.now
      audioStartTime := some (t.startMs / 1000)
      audioEndTime := some (t.endMs / 1000)
      duration := some (t.endMs / 1000 - t.startMs / 1000)
      displayTime := none
      confidence := none
      sequenceId := some t.sequenceId
      speaker := t.speaker
      voiceProfileId := t.voiceProfileId
      source := none }

/-! ## Saving -/

/-- Create a new meeting with transcripts in the database. -/
def createMeetingWithTranscripts (env : ImportEnv) (segments : List TranscriptSegment) :
    EStateM String ImportWorld String := fun world =>
  match TranscriptsRepository.saveTranscript env.sql world.db segments with
  | .ok (meetingId, db) => .ok meetingId { world with db := db }
  | .error message => .error ("Failed to create meeting: " ++ message) world

/-- The metadata of an imported meeting. -/
def importMetadata (env : ImportEnv) (request : ImportRequest) (meetingId : String)
    (durationSeconds : Float) : List (String × Value) :=
  ofEntries [
    ("version", .string "1.0"),
    ("meeting_id", .string meetingId),
    ("meeting_name", .string request.title),
    ("created_at", .string env.now),
    ("completed_at", .string env.now),
    ("duration_seconds", .ofFloat durationSeconds),
    ("audio_file", .string (String.ofList (destFilename request.sourceName))),
    ("transcript_file", .string "transcripts.json"),
    ("status", .string "completed"),
    ("origin", .string "import")]

/-- Write metadata.json, or merge into the one that is there. -/
def writeMetadata (env : ImportEnv) (folder : MeetingFolder) (updates : List (String × Value)) :
    Except String Unit × MeetingFolder :=
  let existing := (folder.files.readToString "metadata.json".toList).bind env.codec.fromStr
  let json : Value := match existing with
    | .ok (.object entries) =>
      .object (updates.foldl (fun entries update => insert update.1 update.2 entries) entries)
    | .ok value => value
    | .error _ => .object updates
  match env.codec.toStringPretty json with
  | .error message => (.error message, folder)
  | .ok text =>
    match folder.write env.modified ".metadata.json.tmp".toList (Utf8.encode text)
        env.metadataWrite with
    | (.error message, folder) => (.error message, folder)
    | (.ok (), folder) =>
      folder.rename ".metadata.json.tmp".toList "metadata.json".toList env.metadataRename

/-- Write transcripts.json and metadata.json to the meeting folder. A failure is only logged. -/
def writeTranscriptFiles (env : ImportEnv) (meetingFolder : FileName)
    (segments : List TranscriptSegment) (metadata : List (String × Value)) :
    EStateM String ImportWorld Unit := fun world =>
  .ok () (world.modifyFolder meetingFolder fun folder =>
    let folder := (TranscriptsJson.writeTranscriptsJson env.codec folder segments env.modified
      env.now env.transcriptsWrite env.transcriptsRename).2
    (writeMetadata env folder metadata).2)

/-! ## The import -/

/-- `run_import` -/
def runImport (env : ImportEnv) (request : ImportRequest) :
    EStateM String ImportWorld ImportResult := do
  failIf env.source.isNone ("Source file not found: " ++ request.sourcePath)
  failIf (env.cancelled .begun) "Import cancelled"
  let meetingFolder ← createMeetingFolder env request.title
  copyAudio env request meetingFolder
  checkCancelled env .copied meetingFolder
  let decoded ← lift (joined env .decode "Decode task join error: " (decodeAudioFileWithProgress env))
  checkCancelled env .decoded meetingFolder
  let audioSamples ← lift (joined env .resample "Resample task join error: "
    (toWhisperFormatWithProgress env decoded))
  checkCancelled env .resampled meetingFolder
  let speechSegments ← lift (detectSpeech env audioSamples)
  checkCancelled env .detected meetingFolder
  lift (if speechSegments.isEmpty then .ok () else getOrInitWhisper env request.pool request.model)
  let transcripts ← transcribeAll env speechSegments meetingFolder
  failIf (!request.pool) "App state not available"
  let segments := createTranscriptSegments env transcripts
  let meetingId ← createMeetingWithTranscripts env segments
  writeTranscriptFiles env meetingFolder segments
    (importMetadata env request meetingId decoded.durationSeconds)
  return ⟨meetingId, request.title, segments.length, decoded.durationSeconds⟩

end Import

end MeetilyLocal
