import MeetilyLocal.Audio.EchoDedup
import MeetilyLocal.Library.TextPositions
import MeetilyLocal.Speakers.SpeakerTurns

/-!
# What becomes of a piece of speech

The embedding of what the live transcription does to one piece of speech (`process_chunk` and what it
calls, `audio/transcription/worker.rs`): the engine transcribes it, what is noise, silence or an echo is
left out, and the rest becomes a line of the transcript with the name of who speaks.

What the engine makes of samples, the conversion to 16 kHz and the time of day are given from outside.
Logging is left out.
-/

namespace MeetilyLocal

open EchoDedup (Buffer CharTables)

namespace Transcription

/-- Granular error types for transcription operations. -/
inductive TranscriptionError : Type where
  /-- the model was unloaded -/
  | modelNotLoaded : TranscriptionError
  /-- there are not enough samples -/
  | audioTooShort (samples minimum : ℕ) : TranscriptionError
  /-- the engine failed -/
  | engineFailed (message : String) : TranscriptionError
  /-- the provider does not know the language -/
  | unsupportedLanguage (language : String) : TranscriptionError

/-- The text of an error. -/
def TranscriptionError.toString : TranscriptionError → String
  | .modelNotLoaded => "No transcription model is loaded"
  | .audioTooShort samples minimum =>
    s!"Audio too short: {samples} samples (minimum {minimum})"
  | .engineFailed message => s!"Transcription engine failed: {message}"
  | .unsupportedLanguage language =>
    s!"Language '{language}' is not supported by this provider"

/-- A line of the live transcript. -/
structure TranscriptUpdate (T : Type) : Type where
  /-- what was said -/
  text : List Char
  /-- wall-clock time -/
  timestamp : String
  /-- audio stream tag -/
  source : String
  /-- its number -/
  sequenceId : UInt64
  /-- where it starts; a legacy field -/
  chunkStartTime : T
  /-- the engine has cut it short -/
  isPartial : Bool
  /-- how sure the engine is -/
  confidence : Float32
  /-- seconds from the start of the recording -/
  audioStartTime : T
  /-- where it ends -/
  audioEndTime : T
  /-- its duration in seconds -/
  duration : T
  /-- speaker label -/
  speaker : Option String
  /-- the voice profile of the speaker -/
  voiceProfileId : Option String

/-- What the user interface is told. -/
inductive WorkerEvent (T : Type) : Type where
  /-- `transcription-error` -/
  | transcriptionError (error userMessage : String) (actionable : Bool) : WorkerEvent T
  /-- `transcription-warning` -/
  | transcriptionWarning (message : String) : WorkerEvent T
  /-- `speech-detected` -/
  | speechDetected (message : String) : WorkerEvent T
  /-- `transcript-update` -/
  | transcriptUpdate (update : TranscriptUpdate T) : WorkerEvent T

/-- What the engine has heard. -/
structure Heard : Type where
  /-- the text -/
  text : List Char
  /-- how sure it is -/
  confidence : Option Float32
  /-- it has cut it short -/
  isPartial : Bool

/-- What is outside, throughout. -/
structure WorkerContext : Type where
  /-- the Unicode tables -/
  tables : CharTables
  /-- `resample_audio`, to 16 kHz -/
  resampleAudio : List Float32 → UInt32 → Except String (List Float32)

/-- What is outside, at one step. -/
structure Surroundings : Type where
  /-- whether the engine comes up -/
  engine : Except String Unit
  /-- the speaker diarizer that is installed -/
  diarizer : Option Diarizer
  /-- whether the engine's model is loaded -/
  isModelLoaded : Bool
  /-- `transcribe_audio_with_confidence`, with the language that is set -/
  transcribe : List Float32 → Except String (List Char × Float32 × Bool)
  /-- `format_current_timestamp` -/
  timestamp : String

/-! ## The engine -/

/-- Resolve a default (source, speaker) pair from the stream. -/
def defaultSpeakerForSource : DeviceType → String × String
  | .microphone => ("mic", "Me")
  | .system => ("system", "Speaker")

/-- Audio of the system below this energy is silence. -/
def systemAudioSilenceThreshold : Float32 := 0.0005

/-- The mean of the squares of samples. -/
def energy (samples : List Float32) : Float32 :=
  (samples.map fun x => x * x).foldl (· + ·) 0 / Float32.ofNat samples.length

section Code

variable {T : Type}

/-- What the engine makes of samples at 16 kHz. -/
def engineAnswer (env : Surroundings) (samples : List Float32) :
    Except TranscriptionError Heard × List (WorkerEvent T) :=
  match env.transcribe samples with
  | .ok (text, confidence, isPartial) => (.ok ⟨trim text, some confidence, isPartial⟩, [])
  | .error e =>
    if "No model loaded".toList <:+: e.toList then (.error .modelNotLoaded, [])
    else
      let message := (TranscriptionError.engineFailed e).toString
      (.error (.engineFailed e),
        [.transcriptionError message s!"Transcription failed: {message}" false])

/-- The samples of a chunk at 16 kHz. -/
def samplesAt16k (ctx : WorkerContext) (chunk : AudioChunk T) :
    Except TranscriptionError (List Float32) :=
  if chunk.sampleRate ≠ 16000 then
    (ctx.resampleAudio chunk.data chunk.sampleRate).mapError fun e => .engineFailed
      s!"Resampling chunk {chunk.chunkId} from {chunk.sampleRate}Hz to 16000Hz failed: {e}"
  else .ok chunk.data

/-- Transcribe a chunk: what was heard, and what the user is told if the engine fails. -/
def transcribeChunkWithProvider (ctx : WorkerContext) (env : Surroundings) (chunk : AudioChunk T) :
    Except TranscriptionError Heard × List (WorkerEvent T) :=
  match samplesAt16k ctx chunk with
  | .error e => (.error e, [])
  | .ok samples =>
    if samples.isEmpty then (.error (.audioTooShort 0 1600), [])
    else if chunk.deviceType = .system ∧ energy samples < systemAudioSilenceThreshold then
      (.ok ⟨[], some 1.0, false⟩, [])
    else engineAnswer env samples

/-- What `process_chunk` tells the user about an error. -/
def TranscriptionError.warning (e : TranscriptionError) : List (WorkerEvent T) :=
  match e with
  | .audioTooShort _ _ | .modelNotLoaded => []
  | _ => [.transcriptionWarning e.toString]

/-- The event is about an engine that does not work. -/
def WorkerEvent.isTrouble : WorkerEvent T → Bool
  | .transcriptionError _ _ _ | .transcriptionWarning _ => true
  | .speechDetected _ | .transcriptUpdate _ => false

theorem isTrouble_warning (e : TranscriptionError) :
    ∀ event ∈ (e.warning : List (WorkerEvent T)), event.isTrouble = true := by
  cases e <;> simp [TranscriptionError.warning, WorkerEvent.isTrouble]

theorem isTrouble_engineAnswer (env : Surroundings) (samples : List Float32) :
    (∀ event ∈ (engineAnswer env samples : _ × List (WorkerEvent T)).2, event.isTrouble = true) ∧
      ∀ heard, (engineAnswer env samples : _ × List (WorkerEvent T)).1 = .ok heard →
        (engineAnswer env samples : _ × List (WorkerEvent T)).2 = [] := by
  rw [engineAnswer]
  cases env.transcribe samples with
  | ok answer => simp
  | error e =>
    simp only
    split
    · simp
    · simp [WorkerEvent.isTrouble]

/-- A piece that is not transcribed makes trouble, if it makes anything. -/
theorem isTrouble_transcribe (ctx : WorkerContext) (env : Surroundings) (chunk : AudioChunk T) :
    (∀ event ∈ (transcribeChunkWithProvider ctx env chunk).2, event.isTrouble = true) ∧
      ∀ heard, (transcribeChunkWithProvider ctx env chunk).1 = .ok heard →
        (transcribeChunkWithProvider ctx env chunk).2 = [] := by
  rw [transcribeChunkWithProvider]
  split
  · simp
  · split_ifs
    · simp
    · simp
    · exact isTrouble_engineAnswer env _

/-! ## What is left out -/

/-- Phrases that are heard in silence. -/
def stockPhrases : List String :=
  ["you", "bye", "thank you", "thanks for watching", "thank you for watching",
    "thank you very much", "please subscribe", "subtitles by the amara.org community",
    "www.mooji.org"]

/-- A text that stands between two characters. -/
def standsBetween (first last : Char) (text : List Char) : Bool :=
  text.head? == some first && text.getLast? == some last

/-- The words of a text in lower case, without what stands around them. -/
def hallucinationWords (tables : CharTables) (text : List Char) : List (List Char) :=
  ((splitWhitespace ((tables.toLowercase text).map fun c =>
    if tables.isAlphanumeric c || c == '.' then c else ' ')).map (trimBy (· == '.'))).filter
      fun word => !word.isEmpty

/-- Stock phrases and sound markers that the engine makes of noise. -/
def isLikelyHallucination (tables : CharTables) (text : List Char) (confidence : Float32) : Bool :=
  let trimmed := trim text
  if trimmed.isEmpty then false
  else if standsBetween '[' ']' trimmed || standsBetween '(' ')' trimmed ||
      standsBetween '♪' '♪' trimmed then true
  else if 0.5 ≤ confidence then false
  else stockPhrases.any fun phrase =>
    phrase.toList == joinWords (hallucinationWords tables trimmed)

example : isLikelyHallucination EchoDedup.asciiTables " Thank you. ".toList 0.35 = true := by
  decide +kernel

/-- What was heard is neither nothing, nor too doubtful, nor noise. -/
def Heard.isSpeech (tables : CharTables) (heard : Heard) : Bool :=
  !(trim heard.text).isEmpty && heard.confidence.all (fun c => decide ((0.3 : Float32) ≤ c)) &&
    !isLikelyHallucination tables heard.text (heard.confidence.getD 1.0)

variable [Instant T]

/-- The duration of a piece. -/
def duration (chunk : AudioChunk T) : T :=
  Instant.ofNat chunk.data.length / Instant.ofNat chunk.sampleRate.toNat

/-- The segment of a piece, as the echo suppression is given it. -/
def segmentOf (piece : PendingChunk T) (text : List Char) : EchoDedup.Segment T :=
  ⟨piece.chunk.deviceType, text, piece.chunk.timestamp,
    piece.chunk.timestamp + duration piece.chunk⟩

/-! ## Who speaks -/

/-- The samples that the diarizer has to embed: none if that was done for the turns. -/
def diarizationSamples (env : Surroundings) (piece : PendingChunk T) : Option (List Float32) :=
  if piece.embedding.isNone && env.diarizer.isSome then some piece.chunk.data else none

/-- What the diarizer says, if there is one and it does not fail. -/
def diarize (env : Surroundings) (piece : PendingChunk T) (samples : Option (List Float32))
    (sequenceId : UInt64) : Option DiarizationResult :=
  match env.diarizer, piece.embedding.isSome || samples.isSome with
  | some diarizer, true =>
    ((diarizer.process sequenceId (samples.getD []) piece.embedding).map Prod.fst).toOption
  | _, _ => none

/-- The line of a piece. -/
def updateOf (env : Surroundings) (piece : PendingChunk T) (samples : Option (List Float32))
    (heard : Heard) (sequenceId : UInt64) : TranscriptUpdate T :=
  let (source, speaker) := defaultSpeakerForSource piece.chunk.deviceType
  let (label, voiceProfileId) := match diarize env piece samples sequenceId with
    | some result => (result.label, result.voiceProfileId)
    | none => (speaker, none)
  { text := heard.text
    timestamp := env.timestamp
    source := source
    sequenceId := sequenceId
    chunkStartTime := piece.chunk.timestamp
    isPartial := heard.isPartial
    confidence := heard.confidence.getD 0.85
    audioStartTime := piece.chunk.timestamp
    audioEndTime := piece.chunk.timestamp + duration piece.chunk
    duration := duration piece.chunk
    speaker := some label
    voiceProfileId := voiceProfileId }

end Code

end Transcription

end MeetilyLocal
