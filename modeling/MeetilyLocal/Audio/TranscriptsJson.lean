import MeetilyLocal.Audio.TranscriptJournal
import MeetilyLocal.Library.JsonValue

/-!
# transcripts.json

The embedding of the other file that `audio/common.rs` keeps a transcript in. The whole list of
segments is written as one JSON document, built by hand and field by field
(`writeTranscriptsJson`), into a temporary file that is then renamed. A reader of the folder
decodes it with the decoder that serde derives for a segment and takes the journal instead if that
is fresher (`loadTranscriptsFromFolder`).

What `serde_json` does with the text of a document is given from outside (`JsonCodec`).
-/

namespace MeetilyLocal

open Json

/-- How JSON documents are printed and read. -/
structure JsonCodec : Type where
  /-- `serde_json::to_string_pretty` -/
  toStringPretty : Value → Except String (List Char)
  /-- `serde_json::from_str` -/
  fromStr : List Char → Except String Value
  /-- what a finite `f64` reads back as: not always itself -/
  float64 : Float → Float
  /-- how the decoder words what is wrong with a value -/
  fromValueError : Value → String

/-- A meeting folder: its files, and when each was last modified as far as that can be read. -/
structure MeetingFolder : Type where
  /-- the files -/
  files : Directory
  /-- their modification times -/
  modified : FileName → Option ℕ

/-- A write left bytes behind, so that the modification time changes. -/
def WriteOutcome.touches : WriteOutcome → Bool
  | .ok => true
  | .failed _ none => false
  | .failed _ (some _) => true

namespace MeetingFolder

/-- No files. -/
def empty : MeetingFolder := ⟨.empty, fun _ => none⟩

/-- The modification times after a write to a file. -/
def stamp (folder : MeetingFolder) (now : ℕ) (file : FileName) (outcome : WriteOutcome) :
    FileName → Option ℕ :=
  if outcome.touches then Function.update folder.modified file (some now) else folder.modified

/-- Create or replace a file. -/
def write (folder : MeetingFolder) (now : ℕ) (file : FileName) (bytes : List UInt8)
    (outcome : WriteOutcome) : Except String Unit × MeetingFolder :=
  ((folder.files.write file bytes outcome).1,
    ⟨(folder.files.write file bytes outcome).2, folder.stamp now file outcome⟩)

/-- Give a file a new name; it keeps its modification time. -/
def rename (folder : MeetingFolder) (source target : FileName) :
    RenameOutcome → Except String Unit × MeetingFolder
  | .ok => (.ok (), ⟨(folder.files.rename source target .ok).2,
      Function.update (Function.update folder.modified target (folder.modified source)) source none⟩)
  | .failed message => (.error message, folder)

/-- Remove a file. -/
def remove (folder : MeetingFolder) (file : FileName) : MeetingFolder :=
  ⟨Function.update folder.files file none, Function.update folder.modified file none⟩

end MeetingFolder

namespace TranscriptsJson

open TranscriptJournal

/-- `transcripts.json` -/
def transcriptsJsonFilename : FileName :=
  ['t', 'r', 'a', 'n', 's', 'c', 'r', 'i', 'p', 't', 's', '.', 'j', 's', 'o', 'n']

/-- `.transcripts.json.tmp` -/
def transcriptsTempFilename : FileName := '.' :: transcriptsJsonFilename ++ ['.', 't', 'm', 'p']

/-! ## Writing -/

/-- The entries of one segment; `i` is its position in the list. -/
def segmentEntries (i : ℕ) (s : TranscriptSegment) : List (String × Value) :=
  let obj := ofEntries [
    ("id", .string s.id),
    ("text", .string s.text),
    ("audio_start_time", .ofOption .ofFloat s.audioStartTime),
    ("audio_end_time", .ofOption .ofFloat s.audioEndTime),
    ("duration", .ofOption .ofFloat s.duration),
    ("speaker", .ofOption .string s.speaker),
    ("voice_profile_id", .ofOption .string s.voiceProfileId),
    ("sequence_id", .number (.posInt (s.sequenceId.getD (.ofNat i))))]
  let obj := insertSome "timestamp" .string s.timestamp obj
  let obj := insertSome "display_time" .string s.displayTime obj
  insertSome "confidence" .ofFloat32 s.confidence obj

/-- The document of a list of segments. -/
def transcriptsValue (lastUpdated : String) (segments : List TranscriptSegment) : Value :=
  .object (ofEntries [
    ("version", .string "1.0"),
    ("last_updated", .string lastUpdated),
    ("total_segments", .number (.posInt (.ofNat segments.length))),
    ("segments", .array (segments.zipIdx.map fun s => .object (segmentEntries s.2 s.1)))])

/-- Write transcripts.json to a meeting folder, through a temporary file. -/
def writeTranscriptsJson (codec : JsonCodec) (folder : MeetingFolder)
    (segments : List TranscriptSegment) (now : ℕ) (lastUpdated : String) (write : WriteOutcome)
    (rename : RenameOutcome) : Except String Unit × MeetingFolder :=
  match codec.toStringPretty (transcriptsValue lastUpdated segments) with
  | .error message => (.error message, folder)
  | .ok text =>
    match folder.write now transcriptsTempFilename (Utf8.encode text) write with
    | (.error message, folder) => (.error message, folder)
    | (.ok (), folder) => folder.rename transcriptsTempFilename transcriptsJsonFilename rename

/-! ## Reading -/

/-- A field without which a segment is not read. -/
def requiredField {α : Type*} (deserialize : Value → Option α) (slot : Option Value) : Option α :=
  slot.bind deserialize

/-- A field that is none if it is missing. -/
def defaultField {α : Type*} (deserialize : Value → Option α) : Option Value → Option (Option α)
  | none => some none
  | some value => value.deserializeOption deserialize

/-- The derived decoder of a segment, from what it finds under the name or at the place of each
field. Entries that it does not know are passed over. -/
def segmentOfSlots (slot : String → ℕ → Option Value) : Option TranscriptSegment := do
  let id ← requiredField Value.deserializeString (slot "id" 0)
  let text ← requiredField Value.deserializeString (slot "text" 1)
  let timestamp ← defaultField Value.deserializeString (slot "timestamp" 2)
  let audioStartTime ← defaultField Value.deserializeFloat (slot "audio_start_time" 3)
  let audioEndTime ← defaultField Value.deserializeFloat (slot "audio_end_time" 4)
  let duration ← defaultField Value.deserializeFloat (slot "duration" 5)
  let displayTime ← defaultField Value.deserializeString (slot "display_time" 6)
  let confidence ← defaultField Value.deserializeFloat32 (slot "confidence" 7)
  let sequenceId ← defaultField Value.deserializeUInt64 (slot "sequence_id" 8)
  let speaker ← defaultField Value.deserializeString (slot "speaker" 9)
  let voiceProfileId ← defaultField Value.deserializeString (slot "voice_profile_id" 10)
  let source ← defaultField Value.deserializeString (slot "source" 11)
  return ⟨id, text, timestamp, audioStartTime, audioEndTime, duration, displayTime, confidence,
    sequenceId, speaker, voiceProfileId, source⟩

/-- Decode a segment: an object, or an array of its fields in their order. -/
def deserializeSegment : Value → Option TranscriptSegment
  | .object entries => segmentOfSlots fun name _ => entries.lookup name
  | .array values => if values.length ≤ 12 then segmentOfSlots fun _ place => values[place]? else none
  | _ => none

/-- Decode a list of segments. -/
def deserializeSegments : Value → Option (List TranscriptSegment)
  | .array values => values.mapM deserializeSegment
  | _ => none

/-- Where a document has its segments: older files are a bare array. -/
def segmentsValue : Value → Value
  | .object entries => (entries.lookup "segments").getD (.array [])
  | .array values => .array values
  | _ => .array []

/-- Read transcripts.json. -/
def readTranscriptsJson (codec : JsonCodec) (files : Directory) :
    Except String (List TranscriptSegment) :=
  match files.readToString transcriptsJsonFilename with
  | .error message => .error message
  | .ok contents =>
    match codec.fromStr contents with
    | .error message => .error message
    | .ok value =>
      match deserializeSegments (segmentsValue value) with
      | none => .error (codec.fromValueError (segmentsValue value))
      | some segments => .ok segments

/-- The journal was modified after transcripts.json, as far as that can be told. -/
def journalNewer (folder : MeetingFolder) : Bool :=
  match folder.modified transcriptsJournalFilename, folder.modified transcriptsJsonFilename with
  | some journalMtime, some jsonMtime => journalMtime > jsonMtime
  | _, _ => false

/-- Load the segments of a meeting folder: from the journal if it is fresher, or there is no
transcripts.json. -/
def loadTranscriptsFromFolder (serde : Serde) (codec : JsonCodec) (order : IterationOrder)
    (folder : MeetingFolder) : Except String (List TranscriptSegment) :=
  let jsonExists := (folder.files transcriptsJsonFilename).isSome
  match if jsonExists then readTranscriptsJson codec folder.files else .ok [] with
  | .error message => .error message
  | .ok jsonSegments =>
    if (folder.files transcriptsJournalFilename).isNone then .ok jsonSegments
    else
      match replayTranscriptJournal serde order folder.files with
      | .error message => .error message
      | .ok journalSegments =>
        let journalIsFresher :=
          !jsonExists || journalNewer folder || journalSegments.length > jsonSegments.length
        .ok (if journalIsFresher then journalSegments else jsonSegments)

end TranscriptsJson

end MeetilyLocal
