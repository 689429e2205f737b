import MeetilyLocal.Library.Decimal
import MeetilyLocal.Library.Directory

/-!
# The incremental audio saver

The embedding of `IncrementalAudioSaver` (`audio/incremental_saver.rs`) and of the feed loop of
`encode_pcm_files_to_aac` (`audio/encode.rs`). A recording is saved as raw PCM checkpoints of
about 30 seconds, files `audio_chunk_000.f32`, `audio_chunk_001.f32` and so on in the
checkpoints directory, and encoded in one pass when it is finalized.

A sample is the bit pattern of an `f32`; the code only moves samples. What the file system and
ffmpeg do is given from outside, as outcomes: each write and rename of a checkpoint
(`WriteOutcome`, `RenameOutcome`), the order in which the directory is listed, how the contents
of a file are cut up by successive reads.
-/

namespace MeetilyLocal

/-- The bit pattern of an `f32` sample. -/
abbrev Sample : Type := UInt32

/-- The little-endian bytes of a sample. -/
def Sample.bytes (s : Sample) : List UInt8 :=
  [s.toUInt8, (s >>> 8).toUInt8, (s >>> 16).toUInt8, (s >>> 24).toUInt8]

/-- `bytemuck::cast_slice`: the bytes of consecutive samples. -/
def castSlice (samples : List Sample) : List UInt8 := samples.flatMap Sample.bytes

/-- The extension of checkpoint files. -/
def checkpointExtension : FileName := ['f', '3', '2']

/-- The extension of a checkpoint that is being written. -/
def partialExtension : FileName := ['f', '3', '2', '.', 'p', 'a', 'r', 't']

/-- The sidecar that describes the PCM layout. -/
def checkpointFormatFile : FileName := ['f', 'o', 'r', 'm', 'a', 't', '.', 'j', 's', 'o', 'n']

/-- `audio_chunk_` -/
def checkpointPrefix : FileName := ['a', 'u', 'd', 'i', 'o', '_', 'c', 'h', 'u', 'n', 'k', '_']

/-- `audio_chunk_{:03}` -/
def checkpointStem (n : ℕ) : FileName := checkpointPrefix ++ Decimal.padded 3 n

/-- `audio_chunk_{:03}.f32` -/
def checkpointName (n : ℕ) : FileName := checkpointStem n ++ '.' :: checkpointExtension

/-- Where a checkpoint is written before it gets its name. -/
def partialName (n : ℕ) : FileName := (checkpointName n).withExtension partialExtension

/-- The filter of `list_checkpoint_files`. -/
def isCheckpointFile (ext file : FileName) : Bool :=
  file.extension == some ext &&
    (file.fileStem.map fun stem => checkpointPrefix.isPrefixOf stem).getD false

/-- Sorted list of the checkpoint files among the entries of a directory. -/
def listCheckpointFiles (listing : List FileName) (ext : FileName) : List FileName :=
  (listing.filter (isCheckpointFile ext)).mergeSort Directory.nameLe

/-! ## Encoding -/

/-- What reading one input file returned: successive non-empty reads, and then the end of the
file or an error. -/
structure FileReads : Type where
  /-- the bytes of each read -/
  reads : List (List UInt8)
  /-- the error that ended reading, none at the end of the file -/
  error : Option String

/-- Bytes per frame: one `f32` for each channel. -/
def frameBytes (channels : ℕ) : ℕ := 4 * max channels 1

/-- One read: what is a whole number of frames is written, the rest is carried. -/
def feedRead (frame : ℕ) (written carry read : List UInt8) : List UInt8 × List UInt8 :=
  let carry := carry ++ read
  let whole := carry.length - carry.length % frame
  (written ++ carry.take whole, carry.drop whole)

/-- The read loop over one file. -/
def feedReads (frame : ℕ) : List UInt8 × List UInt8 → List (List UInt8) → List UInt8 × List UInt8
  | state, [] => state
  | (written, carry), read :: reads => feedReads frame (feedRead frame written carry read) reads

/-- The loop over the files: what was written, and the error that stopped it. -/
def feedFiles (frame : ℕ) :
    List UInt8 × List UInt8 → List FileReads → List UInt8 × Option String
  | (written, _), [] => (written, none)
  | state, file :: files =>
    match file.error with
    | none => feedFiles frame (feedReads frame state file.reads) files
    | some message => ((feedReads frame state file.reads).1, some message)

/-- Feed the files to ffmpeg: the bytes written to its input, and the result, for which `exit`
is what ffmpeg itself reports. -/
def encodePcmFilesToAac (inputs : List FileReads) (channels : ℕ) (exit : Except String Unit) :
    List UInt8 × Except String Unit :=
  if inputs.isEmpty then ([], .error "No checkpoint files provided for encoding")
  else
    match feedFiles (frameBytes channels) ([], []) inputs with
    | (written, none) => (written, exit)
    | (written, some message) => (written, .error message)

/-! ## The saver -/

/-- Incremental audio saver that writes raw-PCM checkpoints every 30 seconds. -/
structure IncrementalAudioSaver : Type where
  /-- the chunks since the last checkpoint -/
  checkpointBuffer : List (List Sample)
  /-- 30 s of interleaved samples -/
  checkpointIntervalSamples : ℕ
  /-- the number of checkpoints saved -/
  checkpointCount : ℕ
  /-- path of the checkpoints directory -/
  checkpointsDir : String
  /-- interleaved channel count of the incoming chunks -/
  channels : ℕ

/-- How saving one checkpoint goes. -/
structure SaveOutcome : Type where
  /-- writing the temporary file -/
  write : WriteOutcome
  /-- renaming it -/
  rename : RenameOutcome

/-- Every file operation succeeds. -/
def SaveOutcome.ok : SaveOutcome := ⟨.ok, .ok⟩

/-- How finalizing goes after the last checkpoint was saved. -/
structure FinalizeOutcome : Type where
  /-- the listing of the checkpoints directory -/
  readDir : Except String (List FileName)
  /-- what reading a file returns -/
  read : FileName → FileReads
  /-- what ffmpeg reports -/
  exit : Except String Unit
  /-- the encoded file exists afterwards -/
  outputExists : Bool

namespace IncrementalAudioSaver

/-- The sidecar's contents: the layout as pretty-printed JSON. -/
def formatJson (sampleRate channels : ℕ) : List UInt8 :=
  ("\x7b\n  \"sample_rate\": " ++ toString sampleRate ++ ",\n  \"channels\": " ++ toString channels ++
    ",\n  \"encoding\": \"f32le\"\n\x7d").toUTF8.toList

/-- Create a new incremental saver: the checkpoints directory must exist, and gets the sidecar. -/
def new (meetingFolder : String) (checkpoints : Option Directory) (sampleRate channels : ℕ)
    (write : WriteOutcome) : Except String (IncrementalAudioSaver × Directory) :=
  let checkpointsDir := meetingFolder ++ "/.checkpoints"
  match checkpoints with
  | none => .error ("Checkpoints directory does not exist: " ++ checkpointsDir)
  | some dir =>
    match dir.write checkpointFormatFile (formatJson sampleRate channels) write with
    | (.error message, _) => .error message
    | (.ok (), dir) => .ok (⟨[], sampleRate * 30 * channels, 0, checkpointsDir, channels⟩, dir)

/-- What `new` makes of an empty checkpoints directory. -/
def fresh (meetingFolder : String) (sampleRate channels : ℕ) :
    IncrementalAudioSaver × Directory :=
  (⟨[], sampleRate * 30 * channels, 0, meetingFolder ++ "/.checkpoints", channels⟩,
    (Directory.empty.write checkpointFormatFile (formatJson sampleRate channels) .ok).2)

theorem new_empty (meetingFolder : String) (sampleRate channels : ℕ) :
    new meetingFolder (some Directory.empty) sampleRate channels .ok =
      .ok (fresh meetingFolder sampleRate channels) := rfl

/-- Save the current buffer as a checkpoint file: written under a temporary name first. -/
def saveCheckpoint (saver : IncrementalAudioSaver) (dir : Directory) (outcome : SaveOutcome) :
    Except String Unit × IncrementalAudioSaver × Directory :=
  let audioData := saver.checkpointBuffer.flatten
  if audioData.isEmpty then (.ok (), saver, dir)
  else
    let checkpointPath := checkpointName saver.checkpointCount
    let tmpPath := checkpointPath.withExtension partialExtension
    match dir.write tmpPath (castSlice audioData) outcome.write with
    | (.error message, dir) => (.error message, saver, dir)
    | (.ok (), dir) =>
      match dir.rename tmpPath checkpointPath outcome.rename with
      | (.error message, dir) => (.error message, saver, dir)
      | (.ok (), dir) =>
        (.ok (), { saver with checkpointCount := saver.checkpointCount + 1 }, dir)

/-- `save_checkpoint()?` and then `checkpoint_buffer.clear()`. -/
def saveAndClear (saver : IncrementalAudioSaver) (dir : Directory) (outcome : SaveOutcome) :
    Except String Unit × IncrementalAudioSaver × Directory :=
  match saver.saveCheckpoint dir outcome with
  | (.error message, saver, dir) => (.error message, saver, dir)
  | (.ok (), saver, dir) => (.ok (), { saver with checkpointBuffer := [] }, dir)

/-- Add an audio chunk to the buffer; save a checkpoint when it reaches 30 seconds. -/
def addChunk (saver : IncrementalAudioSaver) (dir : Directory) (chunk : List Sample)
    (outcome : SaveOutcome) : Except String Unit × IncrementalAudioSaver × Directory :=
  let saver := { saver with checkpointBuffer := saver.checkpointBuffer ++ [chunk] }
  let totalSamples := (saver.checkpointBuffer.map List.length).sum
  if saver.checkpointIntervalSamples ≤ totalSamples then saver.saveAndClear dir outcome
  else (.ok (), saver, dir)

/-- Encode every checkpoint, in order, in a single pass: the bytes given to ffmpeg, and the
result. -/
def encodeCheckpoints (saver : IncrementalAudioSaver) (output : String)
    (outcome : FinalizeOutcome) : List UInt8 × Except String Unit :=
  match outcome.readDir with
  | .error message => ([], .error message)
  | .ok listing =>
    let files := listCheckpointFiles listing checkpointExtension
    if files.isEmpty then
      ([], .error ("No checkpoint files found in " ++ saver.checkpointsDir))
    else
      match encodePcmFilesToAac (files.map outcome.read) saver.channels outcome.exit with
      | (written, .error message) => (written, .error message)
      | (written, .ok ()) =>
        (written, if outcome.outputExists then .ok ()
          else .error ("Encoded audio file was not created: " ++ output))

/-- The first part of `finalize`: save what is left in the buffer. -/
def finalizeSave (saver : IncrementalAudioSaver) (dir : Directory) (outcome : SaveOutcome) :
    Except String Unit × IncrementalAudioSaver × Directory :=
  if saver.checkpointBuffer.isEmpty then (.ok (), saver, dir)
  else saver.saveAndClear dir outcome

/-- The rest of `finalize`: merge all checkpoints. The cleanup that follows cannot fail it. -/
def finalizeMerge (saver : IncrementalAudioSaver) (output : String) (outcome : FinalizeOutcome) :
    List UInt8 × Except String Unit :=
  if saver.checkpointCount = 0 then
    ([], .error "No audio checkpoints to merge - recording may have failed")
  else saver.encodeCheckpoints output outcome

/-- A sequence of `add_chunk` calls, each with the outcome of its file operations. A failed call
is only logged by the caller, which goes on with the next chunk. -/
def addChunks : IncrementalAudioSaver × Directory → List (List Sample × SaveOutcome) →
    IncrementalAudioSaver × Directory
  | state, [] => state
  | (saver, dir), (chunk, outcome) :: calls => addChunks (saver.addChunk dir chunk outcome).2 calls

end IncrementalAudioSaver

end MeetilyLocal
