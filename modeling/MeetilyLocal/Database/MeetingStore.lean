import MeetilyLocal.Audio.Recovery
import MeetilyLocal.Database.ActionItemCalls
import MeetilyLocal.Database.SummaryProcesses
import MeetilyLocal.Database.TranscriptReplace
import MeetilyLocal.Meeting.Page

/-!
# The store of the meetings

The tables that belong to a meeting, as the application and the MCP server have them open: both with
`foreign_keys(true)`, so that a row refers to a meeting that there is, and a meeting that is deleted
takes its rows with it. The functions on single tables are lifted to the store (`onTranscripts`,
`onActionItems`, `onSummaries`); those of `database/repositories/meeting.rs`, of `meeting_note.rs` and
`save_transcript` are here.
-/

namespace MeetilyLocal

open ActionItemsRepository MeetingPage SummaryProcessesRepository TranscriptsRepository

/-- A row of `meetings`, without the calendar event that it is linked to. -/
structure StoredMeeting : Type extends MeetingRow where
  /-- the title -/
  title : String
  /-- when it was created -/
  createdAt : String
  /-- when it was last changed -/
  updatedAt : String

namespace StoredMeeting

/-- The primary key. -/
def key (m : StoredMeeting) : String := m.id

end StoredMeeting

/-- The tables. -/
structure MeetingStore : Type where
  /-- `meetings` -/
  meetings : Table StoredMeeting.key
  /-- `transcripts` -/
  transcripts : List TranscriptRow
  /-- `voice_profiles` -/
  voiceProfiles : List VoiceProfile
  /-- `action_items` -/
  actionItems : Table ActionItem.id
  /-- `meeting_notes` -/
  notes : Table MeetingNote.id
  /-- `summary_processes`, by meeting -/
  processes : String → Option SummaryProcess
  /-- the foreign key of `transcripts` -/
  transcripts_refer : Refers TranscriptRow.meetingId transcripts meetings.keys
  /-- the foreign key of `action_items` -/
  actionItems_refer : Refers ActionItem.meetingId actionItems.rows meetings.keys
  /-- the foreign key of `meeting_notes` -/
  notes_refer : Refers MeetingNote.meetingId notes.rows meetings.keys
  /-- the foreign key of `summary_processes` -/
  processes_refer : ∀ id, processes id ≠ none → id ∈ meetings.keys

namespace MeetingStore

/-- A new database. -/
def empty : MeetingStore where
  meetings := .empty _
  transcripts := []
  voiceProfiles := []
  actionItems := .empty _
  notes := .empty _
  processes := fun _ => none
  transcripts_refer := .nil _ _
  actionItems_refer := .nil _ _
  notes_refer := .nil _ _
  processes_refer := fun _ h => absurd rfl h

/-! ## Functions on single tables -/

/-- What the functions on transcripts see. -/
def database (s : MeetingStore) : Database := ⟨s.meetings.keys, s.transcripts, s.voiceProfiles⟩

/-- What the functions on action items see. -/
def actionDatabase (s : MeetingStore) : ActionDatabase :=
  ⟨s.meetings.keys, s.actionItems.rows, s.actionItems.distinct⟩

/-- What the functions on summaries see. -/
def summaryDatabase (s : MeetingStore) : SummaryDatabase :=
  ⟨fun id => (s.meetings.find id).map (·.updatedAt), s.processes⟩

/-- A function on transcripts leaves the meetings alone, and every row goes on to refer to one. -/
def KeepsTranscripts {α : Type} (f : Database → Except String (α × Database)) : Prop :=
  ∀ db a db', f db = .ok (a, db') → Refers TranscriptRow.meetingId db.transcripts db.meetings →
    Refers TranscriptRow.meetingId db'.transcripts db.meetings

/-- A function on action items leaves the meetings alone, and every row goes on to refer to one. -/
def KeepsActionItems {α : Type} (f : ActionDatabase → Except String α × ActionDatabase) : Prop :=
  ∀ db, Refers ActionItem.meetingId db.items db.meetings →
    Refers ActionItem.meetingId (f db).2.items db.meetings

/-- A function on summaries writes rows of meetings only. -/
def KeepsSummaries {α : Type} (f : SummaryDatabase → Except String (α × SummaryDatabase)) : Prop :=
  ∀ db a db', f db = .ok (a, db') → (∀ id, db.processes id ≠ none → db.meetings id ≠ none) →
    ∀ id, db'.processes id ≠ none → db.meetings id ≠ none

/-- A function on transcripts, on the store. -/
def onTranscripts {α : Type} (s : MeetingStore) (f : Database → Except String (α × Database))
    (hf : KeepsTranscripts f) : Except String α × MeetingStore :=
  match h : f s.database with
  | .ok (a, db) => (.ok a,
      { s with
        transcripts := db.transcripts
        voiceProfiles := db.voiceProfiles
        transcripts_refer := hf s.database a db h s.transcripts_refer })
  | .error message => (.error message, s)

/-- A function on action items, on the store. -/
def onActionItems {α : Type} (s : MeetingStore)
    (f : ActionDatabase → Except String α × ActionDatabase) (hf : KeepsActionItems f) :
    Except String α × MeetingStore :=
  ((f s.actionDatabase).1,
    { s with
      actionItems := ⟨(f s.actionDatabase).2.items, (f s.actionDatabase).2.distinct⟩
      actionItems_refer := hf s.actionDatabase s.actionItems_refer })

/-- `UPDATE meetings SET … WHERE` -/
def updateMeetings (s : MeetingStore) (p : StoredMeeting → Bool) (set : StoredMeeting → StoredMeeting)
    (hset : ∀ m, (set m).key = m.key) : MeetingStore :=
  { s with
    meetings := s.meetings.updateWhere p set hset
    transcripts_refer := by rw [Table.keys_updateWhere]; exact s.transcripts_refer
    actionItems_refer := by rw [Table.keys_updateWhere]; exact s.actionItems_refer
    notes_refer := by rw [Table.keys_updateWhere]; exact s.notes_refer
    processes_refer := by rw [Table.keys_updateWhere]; exact s.processes_refer }

/-- A function on summaries, on the store: it may also change when a meeting was updated. -/
def onSummaries {α : Type} (s : MeetingStore)
    (f : SummaryDatabase → Except String (α × SummaryDatabase)) (hf : KeepsSummaries f) :
    Except String α × MeetingStore :=
  match h : f s.summaryDatabase with
  | .ok (a, db) =>
    let written : MeetingStore :=
      { s with
        processes := db.processes
        processes_refer := by
          intro id hid
          refine Table.isSome_find_iff.mp ?_
          rw [← Option.isSome_map (f := fun m : StoredMeeting => m.updatedAt), ← Option.ne_none_iff_isSome]
          refine hf s.summaryDatabase a db h (fun id hid => ?_) id hid
          rw [Option.ne_none_iff_isSome]
          exact (Option.isSome_map ..).trans (Table.isSome_find_iff.mpr (s.processes_refer id hid)) }
    (.ok a, written.updateMeetings (fun _ => true)
      (fun m => { m with updatedAt := (db.meetings m.id).getD m.updatedAt }) fun _ => rfl)
  | .error message => (.error message, s)

/-! ## `meetings` -/

/-- `INSERT INTO meetings` -/
def insertMeeting (s : MeetingStore) (m : StoredMeeting) (h : m.key ∉ s.meetings.keys) : MeetingStore :=
  { s with
    meetings := s.meetings.insert m h
    transcripts_refer := s.transcripts_refer.mono (List.Subset.refl _) (by simp)
    actionItems_refer := s.actionItems_refer.mono (List.Subset.refl _) (by simp)
    notes_refer := s.notes_refer.mono (List.Subset.refl _) (by simp)
    processes_refer := fun id hid => by simp [s.processes_refer id hid] }

/-- A new row. -/
def newMeeting (id title now : String) (folderPath : Option String) (status : MeetingStatus) :
    StoredMeeting where
  id := id
  title := title
  createdAt := now
  updatedAt := now
  folderPath := folderPath
  status := status
  completedAt := none
  durationSeconds := none
  audioPath := none

/-- `create_recording_meeting` -/
def createRecordingMeeting (env : SqlEnv) (s : MeetingStore) (meetingId title : String)
    (folderPath : Option String) : Except String Unit × MeetingStore :=
  if env.ok 0 then
    if h : meetingId ∈ s.meetings.keys then (.error "UNIQUE constraint failed: meetings.id", s)
    else (.ok (), s.insertMeeting (newMeeting meetingId title (env.now 0) folderPath .recording) h)
  else (.error sqlError, s)

/-- `UPDATE meetings SET … WHERE id = ?` in a statement of its own: whether there is such a row. -/
def updateById (env : SqlEnv) (s : MeetingStore) (meetingId : String)
    (set : StoredMeeting → StoredMeeting) (hset : ∀ m, (set m).key = m.key) :
    Except String Bool × MeetingStore :=
  if env.ok 0 then
    (.ok (decide (meetingId ∈ s.meetings.keys)),
      s.updateMeetings (fun m => m.id = meetingId) set hset)
  else (.error sqlError, s)

/-- `mark_meeting_completed` -/
def markMeetingCompleted (env : SqlEnv) (s : MeetingStore) (meetingId : String)
    (durationSeconds : Option Float) (audioPath : Option String) : Except String Bool × MeetingStore :=
  updateById env s meetingId (fun m =>
    { m with
      status := .completed, completedAt := some (env.now 0),
      durationSeconds := bindFloat durationSeconds, audioPath, updatedAt := env.now 0 }) fun _ => rfl

/-- `mark_meeting_interrupted` -/
def markMeetingInterrupted (env : SqlEnv) (s : MeetingStore) (meetingId : String) :
    Except String Bool × MeetingStore :=
  updateById env s meetingId (fun m => { m with status := .interrupted, updatedAt := env.now 0 })
    fun _ => rfl

/-- A meeting that is still marked as being recorded. -/
def isRecording (m : StoredMeeting) : Bool := m.status = .recording

/-- `mark_stale_recording_meetings_interrupted`: how many there were. -/
def markStaleRecordingMeetingsInterrupted (env : SqlEnv) (s : MeetingStore) :
    Except String ℕ × MeetingStore :=
  if env.ok 0 then
    (.ok (s.meetings.rows.countP isRecording),
      s.updateMeetings isRecording (fun m => { m with status := .interrupted, updatedAt := env.now 0 })
        fun _ => rfl)
  else (.error sqlError, s)

/-- `update_meeting_name`: begin, update, and commit or roll back. -/
def updateMeetingName (env : SqlEnv) (s : MeetingStore) (meetingId newTitle : String) :
    Except String Bool × MeetingStore :=
  if env.ok 0 && env.ok 1 && env.ok 2 then
    (.ok (decide (meetingId ∈ s.meetings.keys)),
      s.updateMeetings (fun m => m.id = meetingId)
        (fun m => { m with title := newTitle, updatedAt := env.now 0 }) fun _ => rfl)
  else (.error sqlError, s)

/-- `update_meeting_title` -/
def updateMeetingTitle (env : SqlEnv) (s : MeetingStore) (meetingId newTitle : String) :
    Except String Bool × MeetingStore :=
  if (trim meetingId.toList).isEmpty then (.error "meeting_id cannot be empty", s)
  else updateMeetingName env s meetingId newTitle

/-- A meeting whose recording was interrupted, as the recovery dialog lists it. -/
structure InterruptedMeetingRow : Type where
  /-- its id -/
  meetingId : String
  /-- its title -/
  title : String
  /-- path of its folder -/
  folderPath : Option String
  /-- when it was created -/
  createdAt : String
  /-- the number of its transcript segments -/
  segmentCount : ℕ

/-- What is listed of a row. -/
def interruptedRow (s : MeetingStore) (m : StoredMeeting) : InterruptedMeetingRow where
  meetingId := m.id
  title := m.title
  folderPath := m.folderPath
  createdAt := m.createdAt
  segmentCount := s.transcripts.countP fun row => row.meetingId = m.id

/-- `ORDER BY m.created_at DESC` -/
def newestFirst (m : StoredMeeting) : Stringᵒᵈ := OrderDual.toDual m.createdAt

/-- `list_interrupted_meetings` -/
def listInterruptedMeetings (order : Arrangement StoredMeeting) (s : MeetingStore) :
    List InterruptedMeetingRow :=
  (orderBy newestFirst order (s.meetings.rows.filter (·.status = .interrupted))).map (interruptedRow s)

/-! ### Deleting -/

/-- `DELETE FROM meetings WHERE id = ?`, with `ON DELETE CASCADE` on every table that refers to it. -/
def deleteMeetingRow (s : MeetingStore) (meetingId : String) : MeetingStore where
  meetings := s.meetings.deleteWhere fun m => m.key = meetingId
  transcripts := s.transcripts.filter fun row => !decide (row.meetingId = meetingId)
  voiceProfiles := s.voiceProfiles
  actionItems := s.actionItems.deleteWhere fun item => item.meetingId = meetingId
  notes := s.notes.deleteWhere fun note => note.meetingId = meetingId
  processes := Function.update s.processes meetingId none
  transcripts_refer := s.meetings.keys_deleteWhere meetingId ▸ s.transcripts_refer.cascade meetingId
  actionItems_refer := s.meetings.keys_deleteWhere meetingId ▸ s.actionItems_refer.cascade meetingId
  notes_refer := s.meetings.keys_deleteWhere meetingId ▸ s.notes_refer.cascade meetingId
  processes_refer := by
    intro id hid
    rw [s.meetings.keys_deleteWhere meetingId]
    by_cases h : id = meetingId
    · simp [h] at hid
    · rw [Function.update_of_ne h] at hid
      exact List.mem_filter.mpr ⟨s.processes_refer id hid, by simpa using h⟩

/-- `DELETE FROM summary_processes WHERE meeting_id = ?` -/
def deleteProcess (s : MeetingStore) (meetingId : String) : MeetingStore :=
  { s with
    processes := Function.update s.processes meetingId none
    processes_refer := by
      intro id hid
      by_cases h : id = meetingId
      · simp [h] at hid
      · rw [Function.update_of_ne h] at hid
        exact s.processes_refer id hid }

/-- `DELETE FROM transcripts WHERE meeting_id = ?` -/
def deleteTranscripts (s : MeetingStore) (meetingId : String) : MeetingStore :=
  { s with
    transcripts := s.transcripts.filter fun row => !decide (row.meetingId = meetingId)
    transcripts_refer := s.transcripts_refer.filter _ }

/-- `delete_meeting_with_transaction`: the statements 2 to 5. -/
def deleteMeetingWithTransaction (env : SqlEnv) (s : MeetingStore) (meetingId : String) :
    Except String Bool × MeetingStore :=
  if !env.ok 2 then (.error sqlError, s)
  else if meetingId ∉ s.meetings.keys then (.ok false, s)
  else if env.ok 3 && env.ok 4 && env.ok 5 then
    (.ok true, ((s.deleteProcess meetingId).deleteTranscripts meetingId).deleteMeetingRow meetingId)
  else (.error sqlError, s)

/-- `delete_meeting`: to acquire a connection, to begin, and in the end to commit or to roll back. -/
def deleteMeeting (env : SqlEnv) (s : MeetingStore) (meetingId : String) :
    Except String Bool × MeetingStore :=
  if (trim meetingId.toList).isEmpty then (.error "meeting_id cannot be empty", s)
  else if !env.ok 0 || !env.ok 1 then (.error sqlError, s)
  else
    match deleteMeetingWithTransaction env s meetingId with
    | (.ok success, s') =>
      if env.ok 6 then (.ok success, if success then s' else s) else (.error sqlError, s)
    | (.error message, _) => (.error message, s)

/-! ## `meeting_notes` -/

/-- `INSERT INTO meeting_notes` -/
def insertNote (s : MeetingStore) (note : MeetingNote) : Except String MeetingStore :=
  if h : note.id ∈ s.notes.keys then .error "UNIQUE constraint failed: meeting_notes.id"
  else if hmeeting : note.meetingId ∈ s.meetings.keys then
    .ok { s with
      notes := s.notes.insert note h
      notes_refer := s.notes_refer.append (List.forall_mem_singleton.mpr hmeeting) }
  else .error "FOREIGN KEY constraint failed"

/-- `MeetingNotesRepository::create`: the body is trimmed, and rejected if it is empty. -/
def createNote (env : SqlEnv) (s : MeetingStore) (meetingId body source : String) :
    Except String MeetingNote × MeetingStore :=
  let trimmed := trim body.toList
  if trimmed.isEmpty then (.error "note body cannot be empty", s)
  else if env.ok 0 then
    let note : MeetingNote :=
      ⟨"note-" ++ env.uuid 0, meetingId, String.ofList trimmed, source, env.now 0⟩
    match s.insertNote note with
    | .ok s' => (if env.ok 1 then .ok note else .error sqlError, s')
    | .error message => (.error message, s)
  else (.error sqlError, s)

/-- `MeetingNotesRepository::delete` -/
def deleteNote (env : SqlEnv) (s : MeetingStore) (id : String) : Except String Bool × MeetingStore :=
  if env.ok 0 then
    (.ok (decide (id ∈ s.notes.keys)),
      { s with
        notes := s.notes.deleteWhere fun note => note.id = id
        notes_refer := s.notes_refer.filter _ })
  else (.error sqlError, s)

/-! ## `save_transcript` -/

/-- What a transcript that is saved adds. -/
theorem of_saveTranscript {env : SqlEnv} {db db' : Database} {segments : List TranscriptSegment}
    {meetingId : String}
    (h : TranscriptsRepository.saveTranscript env db segments = .ok (meetingId, db')) :
    meetingId = "meeting-" ++ env.uuid 0 ∧ meetingId ∉ db.meetings ∧
      ∃ rows, db' = { db with
        meetings := db.meetings ++ [meetingId], transcripts := db.transcripts ++ rows } ∧
        ∀ row ∈ rows, row.meetingId = meetingId := by
  rw [TranscriptsRepository.saveTranscript] at h
  simp only at h
  split at h
  · cases h
  next hnew =>
    rw [Bool.or_eq_true, not_or] at hnew
    split at h
    · next db₁ hinsert =>
      split at h
      · obtain ⟨rfl, rfl⟩ := Prod.mk.inj (Except.ok.inj h)
        obtain ⟨rows, rfl, hrows⟩ := of_insertAll hinsert
        refine ⟨rfl, by simpa using hnew.2, rows, rfl, ?_⟩
        refine forall_mem_of_forall₂ hrows ?_
        rintro segment row ⟨j, rfl⟩
        rfl
      · cases h
    · cases h

/-- `save_transcript`: the row of its meeting is completed from the start. -/
def saveTranscript (env : SqlEnv) (s : MeetingStore) (meetingTitle : String)
    (transcripts : List TranscriptSegment) (folderPath : Option String) :
    Except String String × MeetingStore :=
  match h : TranscriptsRepository.saveTranscript env s.database transcripts with
  | .ok (meetingId, db) =>
    let m := newMeeting meetingId meetingTitle (env.now 0) folderPath .completed
    let inserted := s.insertMeeting m (of_saveTranscript h).2.1
    (.ok meetingId,
      { inserted with
        transcripts := db.transcripts
        transcripts_refer := by
          obtain ⟨-, -, rows, rfl, hrows⟩ := of_saveTranscript h
          have hkeys : inserted.meetings.keys = s.meetings.keys ++ [meetingId] := List.map_append
          refine inserted.transcripts_refer.append fun row hrow => ?_
          rw [hrows row hrow, hkeys]
          exact List.mem_append_right _ (List.mem_singleton.mpr rfl) })
  | .error message => (.error message, s)

end MeetingStore

end MeetilyLocal
