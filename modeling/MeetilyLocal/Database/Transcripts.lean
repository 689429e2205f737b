import MeetilyLocal.Audio.TranscriptJournal

/-!
# Transcript rows

The `transcripts` and `voice_profiles` tables, and the embedding of
`database/repositories/transcript.rs`. A table is the list of its rows. Statements can fail
(`SqlEnv`); one that fails changes nothing, and neither does a transaction in which one fails, so
that such a function returns a new database only if it succeeds.
-/

namespace MeetilyLocal

/-- A row of `transcripts`. -/
structure TranscriptRow : Type where
  /-- primary key -/
  id : String
  /-- the meeting it belongs to -/
  meetingId : String
  /-- what was said -/
  transcript : String
  /-- RFC3339 timestamp -/
  timestamp : String
  /-- seconds into the recording at which it starts -/
  audioStartTime : Option Float
  /-- seconds into the recording at which it ends -/
  audioEndTime : Option Float
  /-- seconds between them -/
  duration : Option Float
  /-- speaker label -/
  speaker : Option String
  /-- the voice profile of the speaker -/
  voiceProfileId : Option String
  /-- the sequence number of the segment -/
  sequenceId : Option Int64
  /-- audio stream -/
  source : Option String
  /-- Whisper confidence score -/
  confidence : Option Float32

/-- A row of `voice_profiles`. -/
structure VoiceProfile : Type where
  /-- primary key -/
  id : String
  /-- name of the speaker -/
  name : String
  /-- their address -/
  email : Option String
  /-- the centroid of their embeddings, packed -/
  embedding : List UInt8
  /-- its dimension -/
  embeddingDim : ℤ
  /-- the number of samples in it -/
  sampleCount : ℤ
  /-- it is the user's own -/
  isSelf : Bool
  /-- when it was created -/
  createdAt : String
  /-- when it was last changed -/
  updatedAt : String
  deriving DecidableEq

/-- The tables. -/
structure Database : Type where
  /-- the ids of the meetings -/
  meetings : List String
  /-- the `transcripts` table -/
  transcripts : List TranscriptRow
  /-- the `voice_profiles` table -/
  voiceProfiles : List VoiceProfile

/-- What the outside decides about the statements of a function, by their number. -/
structure SqlEnv : Type where
  /-- the statement is executed -/
  ok : ℕ → Bool
  /-- `Utc::now().to_rfc3339()` -/
  now : ℕ → String
  /-- `Uuid::new_v4()` -/
  uuid : ℕ → String

/-- An assignment of a speaker refinement. -/
structure SpeakerUpdate : Type where
  /-- the sequence number of the segment -/
  sequenceId : UInt64
  /-- the label it is expected to have -/
  expectedSpeaker : String
  /-- its new label -/
  newSpeaker : String
  /-- its new voice profile -/
  newProfileId : Option String

namespace TranscriptsRepository

/-- A float as a parameter of a statement: NaN is stored as `NULL`. -/
def bindFloat (x : Option Float) : Option Float := x.filter fun x => !x.isNaN

/-- An `f32` as a parameter of a statement. -/
def bindFloat32 (x : Option Float32) : Option Float32 := x.filter fun x => !x.isNaN

/-- What a failed statement returns. -/
def sqlError : String := "database error"

/-! ## Inserting -/

/-- `INSERT INTO transcripts`, with the primary key, the unique index on meeting and sequence
number, and the foreign key on the meeting. -/
def insertRow (db : Database) (row : TranscriptRow) : Except String Database :=
  if db.transcripts.any (fun other => other.id == row.id) then
    .error "UNIQUE constraint failed: transcripts.id"
  else if db.transcripts.any (fun other =>
      row.sequenceId.isSome && other.meetingId == row.meetingId &&
        other.sequenceId == row.sequenceId) then
    .error "UNIQUE constraint failed: transcripts.meeting_id, transcripts.sequence_id"
  else if !db.meetings.contains row.meetingId then .error "FOREIGN KEY constraint failed"
  else .ok { db with transcripts := db.transcripts ++ [row] }

/-- Insert a row for each segment; the statements have the numbers from `k` on. -/
def insertAll (env : SqlEnv) (row : ℕ → TranscriptSegment → TranscriptRow) :
    ℕ → Database → List TranscriptSegment → Except String Database
  | _, db, [] => .ok db
  | k, db, segment :: segments =>
    if env.ok k then
      match insertRow db (row k segment) with
      | .ok db => insertAll env row (k + 1) db segments
      | .error message => .error message
    else .error sqlError

/-- The row that `save_transcript` and `upsert_transcript_segments` store for a segment. -/
def segmentRow (id meetingId now : String) (segment : TranscriptSegment) : TranscriptRow where
  id := id
  meetingId := meetingId
  transcript := segment.text
  timestamp := segment.timestamp.getD now
  audioStartTime := bindFloat segment.audioStartTime
  audioEndTime := bindFloat segment.audioEndTime
  duration := bindFloat segment.duration
  speaker := segment.speaker
  voiceProfileId := segment.voiceProfileId
  sequenceId := segment.sequenceId.map UInt64.toInt64
  source := segment.source
  confidence := bindFloat32 segment.confidence

/-- The row that `replace_transcripts_for_meeting` stores for a segment. -/
def replaceRow (meetingId now : String) (segment : TranscriptSegment) : TranscriptRow where
  id := segment.id
  meetingId := meetingId
  transcript := segment.text
  timestamp := segment.timestamp.getD now
  audioStartTime := bindFloat segment.audioStartTime
  audioEndTime := bindFloat segment.audioEndTime
  duration := bindFloat segment.duration
  speaker := segment.speaker
  voiceProfileId := segment.voiceProfileId
  sequenceId := none
  source := none
  confidence := none

/-- `save_transcript`: a new meeting and its segments. -/
def saveTranscript (env : SqlEnv) (db : Database) (transcripts : List TranscriptSegment) :
    Except String (String × Database) :=
  let meetingId := "meeting-" ++ env.uuid 0
  if !env.ok 0 || db.meetings.contains meetingId then .error sqlError
  else
    let saved := insertAll env (fun k => segmentRow ("transcript-" ++ env.uuid k) meetingId (env.now k))
      1 { db with meetings := db.meetings ++ [meetingId] } transcripts
    match saved with
    | .ok db => if env.ok (transcripts.length + 1) then .ok (meetingId, db) else .error sqlError
    | .error message => .error message

/-- `replace_transcripts_for_meeting`: delete the rows of the meeting and insert the segments. -/
def replaceTranscriptsForMeeting (env : SqlEnv) (db : Database) (meetingId : String)
    (segments : List TranscriptSegment) : Except String Database :=
  if !env.ok 0 then .error sqlError
  else
    let deleted :=
      { db with transcripts := db.transcripts.filter fun row => row.meetingId != meetingId }
    match insertAll env (fun k => replaceRow meetingId (env.now k)) 1 deleted segments with
    | .ok db => if env.ok (segments.length + 1) then .ok db else .error sqlError
    | .error message => .error message

/-- `INSERT INTO transcripts … ON CONFLICT(meeting_id, sequence_id) DO UPDATE`: a row of that meeting
and sequence number keeps its primary key and takes over all other columns. -/
def upsertRow (db : Database) (row : TranscriptRow) : Except String Database :=
  let conflicts := fun other : TranscriptRow => row.sequenceId.isSome &&
    other.meetingId == row.meetingId && other.sequenceId == row.sequenceId
  if db.transcripts.any conflicts then
    .ok { db with transcripts := db.transcripts.map fun other =>
      if conflicts other then { row with id := other.id } else other }
  else insertRow db row

/-- Upsert a row for each segment; the statements have the numbers from `k` on. -/
def upsertAll (env : SqlEnv) : ℕ → Database → List (String × TranscriptSegment) →
    Except String Database
  | _, db, [] => .ok db
  | k, db, (meetingId, segment) :: items =>
    if env.ok k then
      let row := segmentRow ("transcript-" ++ env.uuid k) meetingId (env.now k) segment
      match upsertRow db row with
      | .ok db => upsertAll env (k + 1) db items
      | .error message => .error message
    else .error sqlError

/-- `upsert_transcript_segments`; every statement affects one row. -/
def upsertTranscriptSegments (env : SqlEnv) (db : Database)
    (items : List (String × TranscriptSegment)) : Except String (ℕ × Database) :=
  if items.isEmpty then .ok (0, db)
  else
    match upsertAll env 0 db items with
    | .ok db => if env.ok items.length then .ok (items.length, db) else .error sqlError
    | .error message => .error message

/-! ## Updating -/

/-- `relink_transcripts` -/
def relinkTranscripts (db : Database) (fromProfileId toProfileId toName : String) : Database :=
  { db with transcripts := db.transcripts.map fun row =>
      if row.voiceProfileId = some fromProfileId then
        { row with voiceProfileId := some toProfileId, speaker := some toName }
      else row }

/-- `rename_speaker_in_meeting` -/
def renameSpeakerInMeeting (db : Database) (meetingId oldLabel newLabel : String)
    (profileId : Option String) : Database :=
  { db with transcripts := db.transcripts.map fun row =>
      if row.meetingId = meetingId ∧ row.speaker = some oldLabel then
        { row with speaker := some newLabel, voiceProfileId := profileId }
      else row }

/-- One statement of `update_speakers_by_sequence` on one row. -/
def updateSpeaker (meetingId : String) (update : SpeakerUpdate) (row : TranscriptRow) :
    TranscriptRow :=
  if row.meetingId = meetingId ∧ row.sequenceId = some update.sequenceId.toInt64 ∧
      row.speaker = some update.expectedSpeaker ∧ row.voiceProfileId = none then
    { row with speaker := some update.newSpeaker, voiceProfileId := update.newProfileId }
  else row

/-- The statements of `update_speakers_by_sequence`, from number `k` on. -/
def updateSpeakers (env : SqlEnv) (meetingId : String) :
    ℕ → Database → List SpeakerUpdate → Except String Database
  | _, db, [] => .ok db
  | k, db, update :: updates =>
    if env.ok k then
      updateSpeakers env meetingId (k + 1)
        { db with transcripts := db.transcripts.map (updateSpeaker meetingId update) } updates
    else .error sqlError

/-- The number of rows that the statements of `update_speakers_by_sequence` change. -/
def speakersChanged (meetingId : String) : List TranscriptRow → List SpeakerUpdate → ℕ
  | _, [] => 0
  | rows, update :: updates =>
    (rows.countP fun row => row.meetingId == meetingId &&
        row.sequenceId == some update.sequenceId.toInt64 &&
        row.speaker == some update.expectedSpeaker && row.voiceProfileId.isNone) +
      speakersChanged meetingId (rows.map (updateSpeaker meetingId update)) updates

/-- `update_speakers_by_sequence` -/
def updateSpeakersBySequence (env : SqlEnv) (db : Database) (meetingId : String)
    (updates : List SpeakerUpdate) : Except String Database :=
  if updates.isEmpty then .ok db
  else
    match updateSpeakers env meetingId 0 db updates with
    | .ok db => if env.ok updates.length then .ok db else .error sqlError
    | .error message => .error message

/-- A sequence number is the only one that is stored as it is. -/
theorem map_toInt64_eq_some {number : Option UInt64} {n : UInt64} :
    number.map UInt64.toInt64 = some n.toInt64 ↔ number = some n := by
  cases number with
  | none => simp
  | some number =>
    rw [Option.map_some, Option.some.injEq, Option.some.injEq]
    exact ⟨fun heq => Int64.ofUInt64.inj heq, congrArg _⟩

end TranscriptsRepository

end MeetilyLocal
