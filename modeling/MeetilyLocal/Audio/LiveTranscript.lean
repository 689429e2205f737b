import MeetilyLocal.Database.TranscriptUpserts

/-!
# The two ways of a live segment

The embedding of `transcript_db_writer.rs`, of `subscribe_transcript_persistence`
(`recording_service.rs`) and of the journal writer of `recording_saver.rs`. During a recording each
segment that the transcription publishes is handed over twice: through a channel to a task that
writes batches of segments into the database, and, as soon as the manager is in its slot, through
another channel to a task that appends it to the journal. A batch that is not written is dropped,
and so is a segment that is not appended.

The tasks, the transcription and a stop take their steps in any order (`LiveStep`), and the app can
be gone between any two of them.
-/

namespace MeetilyLocal

/-- What the transcription publishes, as far as it is stored. -/
structure TranscriptUpdate : Type where
  /-- what was said -/
  text : String
  /-- wall-clock time -/
  timestamp : String
  /-- audio stream -/
  source : String
  /-- the number of the segment; a later version of it has the same -/
  sequenceId : UInt64
  /-- Whisper confidence score -/
  confidence : Float32
  /-- seconds into the recording at which it starts -/
  audioStartTime : Float
  /-- seconds into the recording at which it ends -/
  audioEndTime : Float
  /-- seconds between them -/
  duration : Float
  /-- speaker label -/
  speaker : Option String
  /-- the voice profile of the speaker -/
  voiceProfileId : Option String

/-- The segment that the subscriber stores for it. -/
def TranscriptUpdate.segment (update : TranscriptUpdate) : TranscriptSegment where
  id := "seg_" ++ toString update.sequenceId.toNat
  text := update.text
  timestamp := none
  audioStartTime := some update.audioStartTime
  audioEndTime := some update.audioEndTime
  duration := some update.duration
  displayTime := some update.timestamp
  confidence := some update.confidence
  sequenceId := some update.sequenceId
  speaker := update.speaker
  voiceProfileId := update.voiceProfileId
  source := some update.source

/-- The persistence of a recording. -/
structure LiveTranscript : Type where
  /-- the meeting that is recorded -/
  meetingId : String
  /-- the subscriber of the transcript bus is installed -/
  subscribed : Bool
  /-- the segment that it has passed to the database writer only -/
  publishing : Option TranscriptSegment
  /-- `TRANSCRIPT_DB_WRITER` holds the sender of the database writer -/
  writer : Bool
  /-- what is in its channel -/
  queue : List (String × TranscriptSegment)
  /-- what it has received and not written -/
  batch : List (String × TranscriptSegment)
  /-- its task has not ended -/
  running : Bool
  /-- `RECORDING_MANAGER` holds the manager -/
  manager : Bool
  /-- `PENDING_SEGMENT_BUFFER` -/
  pending : List TranscriptSegment
  /-- there is a folder, and with it a journal writer -/
  journaling : Bool
  /-- what is in its channel -/
  journalQueue : List TranscriptSegment
  /-- the files of the folder -/
  files : Directory
  /-- the database -/
  db : Database
  /-- the segments whose batch was committed, in that order -/
  written : List TranscriptSegment
  /-- the segments whose append completed, in that order -/
  journaled : List TranscriptSegment

namespace LiveTranscript

open TranscriptsRepository TranscriptJournal

/-- Flush once this many segments have queued up. -/
def batchSize : ℕ := 20

/-- `create_recording_meeting`: the row of the meeting is inserted. -/
def createRecordingMeeting (env : SqlEnv) (db : Database) (meetingId : String) :
    Except String Database :=
  if !env.ok 0 then .error sqlError
  else if db.meetings.contains meetingId then .error "UNIQUE constraint failed: meetings.id"
  else .ok { db with meetings := db.meetings ++ [meetingId] }

/-- The persistence when a recording begins; segments of an earlier one may have been left in the
buffer. -/
def start (meetingId : String) (pending : List TranscriptSegment) (journaling : Bool)
    (files : Directory) (db : Database) : LiveTranscript where
  meetingId := meetingId
  subscribed := true
  publishing := none
  writer := true
  queue := []
  batch := []
  running := true
  manager := true
  pending := pending
  journaling := journaling
  journalQueue := []
  files := files
  db := db
  written := []
  journaled := []

variable (serde : Serde) (env : SqlEnv) (st : LiveTranscript)

/-! ## The database writer -/

/-- `TranscriptDbWriter::enqueue`; without a task to receive it the segment is dropped. -/
def enqueue (segment : TranscriptSegment) : LiveTranscript :=
  if st.writer && st.running then { st with queue := st.queue ++ [(st.meetingId, segment)] }
  else st

/-- Write the batch; it is dropped if that fails. -/
def flush : LiveTranscript :=
  if st.batch.isEmpty then st
  else
    match upsertTranscriptSegments env st.db st.batch with
    | .ok (_, db) =>
      { st with batch := [], db := db, written := st.written ++ st.batch.map Prod.snd }
    | .error _ => { st with batch := [] }

/-- `run_writer` receives an item. -/
def receive (item : String × TranscriptSegment) (rest : List (String × TranscriptSegment)) :
    LiveTranscript :=
  let received := { st with queue := rest, batch := st.batch ++ [item] }
  if batchSize ≤ received.batch.length then received.flush env else received

/-! ## The journal -/

/-- The segments are sent to the journal writer. -/
def sendJournal (segments : List TranscriptSegment) : LiveTranscript :=
  if st.journaling then { st with journalQueue := st.journalQueue ++ segments } else st

/-- The subscriber passes the segment to the manager, or buffers it. -/
def deliver (segment : TranscriptSegment) : LiveTranscript :=
  if st.manager then st.sendJournal [segment] else { st with pending := st.pending ++ [segment] }

/-- The journal writer appends a segment; it goes on if that fails. -/
def append (segment : TranscriptSegment) (rest : List TranscriptSegment) (outcome : WriteOutcome) :
    LiveTranscript :=
  match appendTranscriptJournalLine serde st.files segment outcome with
  | (.ok (), files) =>
    { st with journalQueue := rest, files := files, journaled := st.journaled ++ [segment] }
  | (.error _, files) => { st with journalQueue := rest, files := files }

/-! ## Steps -/

/-- What can happen next. -/
inductive LiveStep : LiveTranscript → LiveTranscript → Prop where
  /-- a segment is published, and passed to the database writer -/
  | publish {st : LiveTranscript} (hsubscribed : st.subscribed = true)
      (hidle : st.publishing = none) (update : TranscriptUpdate) :
      LiveStep st { st.enqueue update.segment with publishing := some update.segment }
  /-- it is passed to the manager -/
  | deliver {st : LiveTranscript} {segment : TranscriptSegment}
      (hpublishing : st.publishing = some segment) :
      LiveStep st { st.deliver segment with publishing := none }
  /-- a stop takes the manager out -/
  | takeManager {st : LiveTranscript} : LiveStep st { st with manager := false }
  /-- it replays what was buffered -/
  | replay {st : LiveTranscript} (hmanager : st.manager = false) :
      LiveStep st { st.sendJournal st.pending with pending := [] }
  /-- it puts the manager back -/
  | putBack {st : LiveTranscript} : LiveStep st { st with manager := true }
  /-- it removes the subscriber -/
  | unsubscribe {st : LiveTranscript} : LiveStep st { st with subscribed := false }
  /-- it drops the sender of the database writer -/
  | dropWriter {st : LiveTranscript} : LiveStep st { st with writer := false }
  /-- the database writer receives an item -/
  | receive {st : LiveTranscript} {item : String × TranscriptSegment}
      {rest : List (String × TranscriptSegment)} (hrunning : st.running = true)
      (hqueue : st.queue = item :: rest) (env : SqlEnv) : LiveStep st (st.receive env item rest)
  /-- its interval ticks, and there is nothing to receive -/
  | tick {st : LiveTranscript} (hrunning : st.running = true) (hqueue : st.queue = [])
      (hwriter : st.writer = true) (env : SqlEnv) : LiveStep st (st.flush env)
  /-- its channel is closed -/
  | close {st : LiveTranscript} (hrunning : st.running = true) (hqueue : st.queue = [])
      (hwriter : st.writer = false) (env : SqlEnv) :
      LiveStep st { st.flush env with running := false }
  /-- its task is aborted, when another recording starts -/
  | abort {st : LiveTranscript} : LiveStep st { st with running := false }
  /-- the journal writer receives a segment -/
  | append {st : LiveTranscript} {segment : TranscriptSegment} {rest : List TranscriptSegment}
      (hqueue : st.journalQueue = segment :: rest) (outcome : WriteOutcome) :
      LiveStep st (st.append serde segment rest outcome)

/-- Any number of steps. -/
def Reaches : LiveTranscript → LiveTranscript → Prop := Relation.ReflTransGen (LiveStep serde)

end LiveTranscript

end MeetilyLocal
