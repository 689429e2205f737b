import MeetilyLocal.Library.Directory
import MeetilyLocal.Library.FloatOrder
import MeetilyLocal.Library.Text

/-!
# The transcript journal

The embedding of the append-only transcript journal of `audio/common.rs`. During a recording each
segment is appended to `transcripts.ndjson` as one line of JSON; an updated segment is appended
again. A replay parses every line, skips the lines that do not parse, keeps the last segment
written under each key and sorts what it kept.

What `serde` and `serde_json` do with a segment is given from outside (`Serde`), and so is the
order in which a hash map gives out its values (`IterationOrder`).
-/

namespace MeetilyLocal

/-- Canonical transcript segment type. -/
structure TranscriptSegment : Type where
  /-- identifier of the segment -/
  id : String
  /-- what was said -/
  text : String
  /-- RFC3339 timestamp -/
  timestamp : Option String
  /-- seconds into the recording at which the segment starts -/
  audioStartTime : Option Float
  /-- seconds into the recording at which the segment ends -/
  audioEndTime : Option Float
  /-- seconds between them -/
  duration : Option Float
  /-- formatted wall-clock time for display -/
  displayTime : Option String
  /-- Whisper confidence score -/
  confidence : Option Float32
  /-- the monotonic per-session counter, also used for updates in place -/
  sequenceId : Option UInt64
  /-- speaker label -/
  speaker : Option String
  /-- foreign key into the voice profiles -/
  voiceProfileId : Option String
  /-- audio stream the segment came from -/
  source : Option String

/-- The JSON codec that serde derives for segments. -/
structure Serde : Type where
  /-- `serde_json::to_string` -/
  toString : TranscriptSegment → Except String (List Char)
  /-- `serde_json::from_str` -/
  fromStr : List Char → Except String TranscriptSegment
  /-- what an `f64` reads back as: not always itself, and NaN and the infinities as none -/
  float64 : Float → Option Float
  /-- what an `f32` reads back as -/
  float32 : Float32 → Option Float32

/-- An order in which a hash map gives out its values. -/
structure IterationOrder : Type where
  /-- the values in that order -/
  arrange : List TranscriptSegment → List TranscriptSegment
  /-- each value is given out once -/
  perm : ∀ segments, (arrange segments).Perm segments

namespace TranscriptJournal

/-- `TRANSCRIPTS_JOURNAL_FILENAME` -/
def transcriptsJournalFilename : FileName :=
  ['t', 'r', 'a', 'n', 's', 'c', 'r', 'i', 'p', 't', 's', '.', 'n', 'd', 'j', 's', 'o', 'n']

/-! ## Chronological order -/

/-- The start time that a segment is sorted by. -/
def sortTime (segment : TranscriptSegment) : Float := segment.audioStartTime.getD Float64.max

/-- The sequence number that a segment is sorted by; `u64::MAX` if it has none. -/
def sortSequence (segment : TranscriptSegment) : ℕ :=
  (segment.sequenceId.getD 0xFFFFFFFFFFFFFFFF).toNat

/-- The comparison of `sort_segments_chronologically`. -/
def compareSegments (a b : TranscriptSegment) : Ordering :=
  ((Float64.partialCmp (sortTime a) (sortTime b)).getD .eq).then
    (compare (sortSequence a) (sortSequence b))

/-- `a` may stand before `b`. -/
def chronological (a b : TranscriptSegment) : Bool := (compareSegments a b).isLE

/-- Sort by start time, using `sequence_id` as a tie-breaker. -/
def sortSegmentsChronologically (segments : List TranscriptSegment) : List TranscriptSegment :=
  segments.mergeSort chronological

/-! ## Appending -/

/-- Append one segment as a single JSON line, creating the file if it does not exist yet. -/
def appendTranscriptJournalLine (serde : Serde) (folder : Directory)
    (segment : TranscriptSegment) (outcome : WriteOutcome) : Except String Unit × Directory :=
  match serde.toString segment with
  | .error message => (.error message, folder)
  | .ok line =>
    folder.append transcriptsJournalFilename (Utf8.encode (line ++ ['\n'])) outcome

/-- Append segments one after the other; the first failure ends it. -/
def appendAll (serde : Serde) :
    Directory → List TranscriptSegment → Except String Unit × Directory
  | folder, [] => (.ok (), folder)
  | folder, segment :: segments =>
    match appendTranscriptJournalLine serde folder segment .ok with
    | (.ok (), folder) => appendAll serde folder segments
    | (.error message, folder) => (.error message, folder)

/-! ## Replay -/

/-- Unique key a journal replay dedupes on. -/
def journalReplayKey (segment : TranscriptSegment) : String :=
  match segment.sequenceId with
  | some sequenceId => "seq:" ++ toString sequenceId.toNat
  | none => "id:" ++ segment.id

/-- `HashMap::insert`: the value takes the place of what the key had. -/
def insertByKey (byKey : List (String × TranscriptSegment)) (key : String)
    (segment : TranscriptSegment) : List (String × TranscriptSegment) :=
  byKey.filter (fun entry => entry.1 != key) ++ [(key, segment)]

/-- What the replay does with one line. -/
def replayLine (serde : Serde) (byKey : List (String × TranscriptSegment)) (line : List Char) :
    List (String × TranscriptSegment) :=
  let line := trim line
  if line.isEmpty then byKey
  else
    match serde.fromStr line with
    | .ok segment => insertByKey byKey (journalReplayKey segment) segment
    | .error _ => byKey

/-- Replay the journal: keep only the last line written for each key, and sort. -/
def replayTranscriptJournal (serde : Serde) (order : IterationOrder) (folder : Directory) :
    Except String (List TranscriptSegment) :=
  match folder.readToString transcriptsJournalFilename with
  | .error message => .error message
  | .ok contents =>
    let byKey := (lines contents).foldl (replayLine serde) []
    .ok (sortSegmentsChronologically (order.arrange (byKey.map Prod.snd)))

end TranscriptJournal

end MeetilyLocal
