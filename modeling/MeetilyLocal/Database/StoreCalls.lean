import MeetilyLocal.Database.StoreReferences

/-!
# Calls on the store

All functions that write one of the tables of a meeting, of the application and of the MCP server, as
calls on one store (`StoreCall`), in any order (`run`). A call is one transaction or one statement, so
that nothing comes between its statements; what it answers is left out here.

The column `status` of the meetings is that of a small machine, which only five kinds of calls move
(`statusOf_perform`).
-/

namespace MeetilyLocal

open ActionItemsRepository MeetingPage SummaryProcessesRepository TranscriptsRepository

/-! ## What the MCP server writes -/

namespace Mcp

/-- `require_nonempty` -/
def requireNonempty (value field : String) : Except String String :=
  let trimmed := trim value.toList
  if trimmed.isEmpty then .error ("`" ++ field ++ "` must not be empty.")
  else .ok (String.ofList trimmed)

/-- `optional`: absent and blank mean the same thing. -/
def optional (value : Option String) : Option String :=
  (value.map fun v => String.ofList (trim v.toList)).filter (· ≠ "")

/-- `validate_status`; `debug` is how a text is shown in an error. -/
def validateStatus (debug : List Char → List Char) (value : String) : Except String String :=
  let normalized := (trim value.toList).map Char.toLower
  if normalized = statusOpen.toList then .ok statusOpen
  else if normalized = statusDone.toList then .ok statusDone
  else
    .error (String.ofList ("`status` must be \"open\" or \"done\" (got ".toList ++ debug normalized ++
      ").".toList))

/-- The statement of `add_meeting_note`. -/
def insertAgentNote (id meetingId body now : String) (s : MeetingStore) :
    Except String Unit × MeetingStore :=
  match s.insertNote ⟨id, meetingId, body, sourceAgent, now⟩ with
  | .ok s' => (.ok (), s')
  | .error message => (.error message, s)

/-- The row that `create_action_item` inserts. -/
def agentItem (id meetingId text : String) (assignee dueHint : Option String) (now : String) :
    ActionItem :=
  newItem id meetingId text.toList ⟨text, assignee, dueHint, none, none, none⟩ sourceAgent now

/-- The `INSERT` of an item. -/
def insertItemRow (row : ActionItem) (db : ActionDatabase) : Except String Unit × ActionDatabase :=
  match insertItem db row with
  | .ok db' => (.ok (), db')
  | .error message => (.error message, db)

/-- The statement of `set_action_item_status`: how many rows it affects. -/
def updateItemStatus (id status now : String) (db : ActionDatabase) :
    Except String ℕ × ActionDatabase :=
  (.ok ((table db).rows.countP fun item => item.id = id),
    withTable db ((table db).updateWhere (fun item => item.id = id) (statusSet status now) fun _ => rfl))

end Mcp

namespace MeetingStore

open Mcp

/-- An item that does not refer to a meeting is not inserted. -/
theorem keepsActionItems_insertItemRow (row : ActionItem) :
    KeepsActionItems (insertItemRow row) := by
  intro db href
  rw [insertItemRow]
  split
  · next db' hinsert =>
    obtain ⟨-, hitems, hmeeting⟩ := insertItem_eq_ok hinsert
    rw [hitems]
    exact href.append (List.forall_mem_singleton.mpr hmeeting)
  · exact href

theorem keepsActionItems_updateItemStatus (id status now : String) :
    KeepsActionItems (updateItemStatus id status now) :=
  fun db href => href.map fun item => by
    split
    · rfl
    · rfl

/-- The statement of `create_action_item`. -/
def insertAgentItem (row : ActionItem) (s : MeetingStore) : Except String Unit × MeetingStore :=
  s.onActionItems (insertItemRow row) (keepsActionItems_insertItemRow row)

/-- The statement of `set_action_item_status`. -/
def updateAgentStatus (id status now : String) (s : MeetingStore) : Except String ℕ × MeetingStore :=
  s.onActionItems (updateItemStatus id status now) (keepsActionItems_updateItemStatus id status now)

end MeetingStore

/-! ## Calls -/

/-- A call that writes the store. -/
inductive StoreCall : Type where
  /-- `create_recording_meeting`: meeting, title and folder -/
  | createRecordingMeeting : String → String → Option String → StoreCall
  /-- `save_transcript`: title, segments and folder -/
  | saveTranscript : String → List TranscriptSegment → Option String → StoreCall
  /-- `replace_transcripts_for_meeting` -/
  | replaceTranscripts : String → List TranscriptSegment → StoreCall
  /-- `upsert_transcript_segments` -/
  | upsertTranscripts : List (String × TranscriptSegment) → StoreCall
  /-- `relink_transcripts`: the old profile, the new one and its name -/
  | relinkTranscripts : String → String → String → StoreCall
  /-- `rename_speaker_in_meeting`: the meeting, the old label, the new one and its profile -/
  | renameSpeaker : String → String → String → Option String → StoreCall
  /-- `update_speakers_by_sequence` -/
  | updateSpeakers : String → List SpeakerUpdate → StoreCall
  /-- `update_meeting_title` -/
  | updateMeetingTitle : String → String → StoreCall
  /-- `update_meeting_name` -/
  | updateMeetingName : String → String → StoreCall
  /-- `mark_meeting_completed`: meeting, duration and path of the audio -/
  | markCompleted : String → Option Float → Option String → StoreCall
  /-- `mark_meeting_interrupted` -/
  | markInterrupted : String → StoreCall
  /-- `mark_stale_recording_meetings_interrupted`, which `prepare_database_on_startup` calls once -/
  | sweep : StoreCall
  /-- `delete_meeting` -/
  | deleteMeeting : String → StoreCall
  /-- `ActionItemsRepository::create`: meeting, item and source -/
  | createItem : String → NewActionItem → String → StoreCall
  /-- `set_status` -/
  | setItemStatus : String → String → StoreCall
  /-- `update`: item, text, assignee and due hint -/
  | updateItem : String → Option String → Option String → Option String → StoreCall
  /-- `ActionItemsRepository::delete` -/
  | deleteItem : String → StoreCall
  /-- `replace_summary_items` -/
  | replaceSummaryItems : String → List NewActionItem → StoreCall
  /-- `MeetingNotesRepository::create`: meeting, body and source -/
  | createNote : String → String → String → StoreCall
  /-- `MeetingNotesRepository::delete` -/
  | deleteNote : String → StoreCall
  /-- a call that writes the summary of a meeting -/
  | summary : String → SummaryCall → StoreCall
  /-- an agent adds a note: meeting and body -/
  | agentNote : String → String → StoreCall
  /-- an agent creates an item: meeting, text, assignee and due hint -/
  | agentItem : String → String → Option String → Option String → StoreCall
  /-- an agent sets the status of an item -/
  | agentStatus : String → String → StoreCall

/-- A call, with the outside that it meets. -/
structure StoreCallAt : Type where
  /-- what the outside decides about its statements -/
  env : SqlEnv
  /-- the call -/
  call : StoreCall

namespace MeetingStore

open Mcp

/-- How texts are compared, and in which order items are read. -/
structure StoreContext : Type where
  /-- the tables of `str::to_lowercase` -/
  tables : CaseTables
  /-- the order of a query without an `ORDER BY` -/
  order : Arrangement ActionItem
  /-- how a text is shown in an error -/
  debug : List Char → List Char

/-- What a call leaves. -/
def perform (ctx : StoreContext) (c : StoreCallAt) (s : MeetingStore) : MeetingStore :=
  let env := c.env
  match c.call with
  | .createRecordingMeeting meetingId title folderPath =>
    (createRecordingMeeting env s meetingId title folderPath).2
  | .saveTranscript title transcripts folderPath => (saveTranscript env s title transcripts folderPath).2
  | .replaceTranscripts meetingId segments =>
    (s.onTranscripts _ (keepsTranscripts_replace env meetingId segments)).2
  | .upsertTranscripts items => (s.onTranscripts _ (keepsTranscripts_upsert env items)).2
  | .relinkTranscripts fromProfileId toProfileId toName =>
    (s.onTranscripts _ (keepsTranscripts_statement env fun _ =>
      keepsRows_relink fromProfileId toProfileId toName)).2
  | .renameSpeaker meetingId oldLabel newLabel profileId =>
    (s.onTranscripts _ (keepsTranscripts_statement env fun _ =>
      keepsRows_renameSpeaker meetingId oldLabel newLabel profileId)).2
  | .updateSpeakers meetingId updates =>
    (s.onTranscripts _ (keepsTranscripts_updateSpeakers env meetingId updates)).2
  | .updateMeetingTitle meetingId newTitle => (updateMeetingTitle env s meetingId newTitle).2
  | .updateMeetingName meetingId newTitle => (updateMeetingName env s meetingId newTitle).2
  | .markCompleted meetingId durationSeconds audioPath =>
    (markMeetingCompleted env s meetingId durationSeconds audioPath).2
  | .markInterrupted meetingId => (markMeetingInterrupted env s meetingId).2
  | .sweep => (markStaleRecordingMeetingsInterrupted env s).2
  | .deleteMeeting meetingId => (deleteMeeting env s meetingId).2
  | .createItem meetingId item source =>
    (s.onActionItems (create env · meetingId item source)
      (keepsActionItems_of_rewrites fun _ => rewrites_create item)).2
  | .setItemStatus id status =>
    (s.onActionItems (setStatus env · id status) (keepsActionItems_of_rewrites fun _ => rewrites_setStatus)).2
  | .updateItem id text assignee dueHint =>
    (s.onActionItems (update env · id text assignee dueHint)
      (keepsActionItems_of_rewrites fun _ => rewrites_update)).2
  | .deleteItem id =>
    (s.onActionItems (delete env · id) (keepsActionItems_of_rewrites fun _ => rewrites_delete)).2
  | .replaceSummaryItems meetingId items =>
    (s.onActionItems (ActionItemsRepository.replaceSummaryItems ctx.tables env ctx.order · meetingId items)
      (keepsActionItems_of_rewrites fun _ => rewrites_replaceSummaryItems fun _ _ => trivial)).2
  | .createNote meetingId body source => (createNote env s meetingId body source).2
  | .deleteNote id => (deleteNote env s id).2
  | .summary meetingId call => (s.onSummaries _ (keepsSummaries_perform ⟨env, meetingId, call⟩)).2
  | .agentNote meetingId body =>
    match requireNonempty body "body" with
    | .ok body => (insertAgentNote (env.uuid 0) meetingId body (env.now 0) s).2
    | .error _ => s
  | .agentItem meetingId text assignee dueHint =>
    match requireNonempty text "text" with
    | .ok text => (s.insertAgentItem
        (Mcp.agentItem (env.uuid 0) meetingId text (optional assignee) (optional dueHint) (env.now 0))).2
    | .error _ => s
  | .agentStatus id status =>
    match validateStatus ctx.debug status with
    | .ok status => (s.updateAgentStatus id status (env.now 0)).2
    | .error _ => s

/-- What a number of calls leave, one after the other. -/
def run (ctx : StoreContext) (calls : List StoreCallAt) (s : MeetingStore) : MeetingStore :=
  calls.foldl (fun s c => perform ctx c s) s

/-! ## The status of a meeting -/

/-- What has become of its recording. -/
def statusOf (s : MeetingStore) (meetingId : String) : Option MeetingStatus :=
  (s.meetings.find meetingId).map (·.status)

/-- A move of the column `status`. -/
inductive StatusMove : Type where
  /-- a recording starts -/
  | started : String → StatusMove
  /-- a transcript is saved with its meeting -/
  | imported : String → StatusMove
  /-- a recording is completed, by a stop or by recovery -/
  | completed : String → StatusMove
  /-- a recording ends with a fatal error -/
  | interrupted : String → StatusMove
  /-- the application starts -/
  | swept : StatusMove
  /-- a meeting is deleted -/
  | deleted : String → StatusMove

/-- The status of each meeting behind a move. -/
def StatusMove.apply (move : StatusMove) (status : String → Option MeetingStatus) :
    String → Option MeetingStatus :=
  match move with
  | started id => if status id = none then Function.update status id (some .recording) else status
  | imported id => if status id = none then Function.update status id (some .completed) else status
  | completed id => Function.update status id ((status id).map fun _ => .completed)
  | interrupted id => Function.update status id ((status id).map fun _ => .interrupted)
  | swept => fun id => (status id).map fun st => if st = .recording then .interrupted else st
  | deleted id => Function.update status id none

/-- The move that a call makes, if it makes one. -/
def moveOf (c : StoreCallAt) (s : MeetingStore) : Option StatusMove :=
  match c.call with
  | .createRecordingMeeting meetingId _ _ =>
    if c.env.ok 0 then some (.started meetingId) else none
  | .saveTranscript _ transcripts _ =>
    match TranscriptsRepository.saveTranscript c.env s.database transcripts with
    | .ok (meetingId, _) => some (.imported meetingId)
    | .error _ => none
  | .markCompleted meetingId _ _ => if c.env.ok 0 then some (.completed meetingId) else none
  | .markInterrupted meetingId => if c.env.ok 0 then some (.interrupted meetingId) else none
  | .sweep => if c.env.ok 0 then some .swept else none
  | .deleteMeeting meetingId =>
    match (deleteMeeting c.env s meetingId).1 with
    | .ok true => some (.deleted meetingId)
    | _ => none
  | _ => none

section Status

variable {s s' : MeetingStore} {ctx : StoreContext} {env : SqlEnv} {meetingId id : String}

theorem statusOf_eq_none_iff : s.statusOf id = none ↔ id ∉ s.meetings.keys := by
  rw [statusOf, Option.map_eq_none_iff, Table.find_eq_none_iff]

theorem statusOf_congr (h : s'.meetings = s.meetings) : s'.statusOf = s.statusOf := by
  funext id
  rw [statusOf, statusOf, h]

theorem statusOf_onTranscripts {α : Type} {f : Database → Except String (α × Database)}
    {hf : KeepsTranscripts f} : (s.onTranscripts f hf).2.statusOf = s.statusOf := by
  refine statusOf_congr ?_
  rw [onTranscripts]
  split <;> rfl

/-- What an update of meetings does to the status. -/
theorem statusOf_updateMeetings_apply {p : StoredMeeting → Bool} {set : StoredMeeting → StoredMeeting}
    {hset : ∀ m, (set m).key = m.key} (id : String) :
    (s.updateMeetings p set hset).statusOf id =
      (s.meetings.find id).map fun m => (if p m then set m else m).status := by
  rw [statusOf, updateMeetings, Table.find_updateWhere, Option.map_map]
  rfl

/-- An update of meetings that leaves the status alone. -/
theorem statusOf_updateMeetings {p : StoredMeeting → Bool} {set : StoredMeeting → StoredMeeting}
    {hset : ∀ m, (set m).key = m.key} (hstatus : ∀ m, (set m).status = m.status) :
    (s.updateMeetings p set hset).statusOf = s.statusOf := by
  funext id
  rw [statusOf_updateMeetings_apply, statusOf]
  congr 1
  funext m
  split
  · exact hstatus m
  · rfl

theorem statusOf_onSummaries {α : Type} {f : SummaryDatabase → Except String (α × SummaryDatabase)}
    {hf : KeepsSummaries f} : (s.onSummaries f hf).2.statusOf = s.statusOf := by
  rw [onSummaries]
  split
  · exact statusOf_updateMeetings fun _ => rfl
  · rfl

/-- An update of one meeting that sets the status. -/
theorem statusOf_updateById {status : MeetingStatus} {set : StoredMeeting → StoredMeeting}
    {hset : ∀ m, (set m).key = m.key} (hstatus : ∀ m, (set m).status = status) :
    (updateById env s meetingId set hset).2.statusOf =
      if env.ok 0 then
        Function.update s.statusOf meetingId ((s.statusOf meetingId).map fun _ => status)
      else s.statusOf := by
  rw [updateById]
  split
  · funext id
    refine (statusOf_updateMeetings_apply id).trans ?_
    by_cases hid : id = meetingId
    · subst hid
      rw [Function.update_self, statusOf, Option.map_map]
      cases hfind : s.meetings.find id with
      | none => rfl
      | some m =>
        have hm : m.id = id := (Table.find_eq_some_iff.mp hfind).2
        simp [hm, hstatus]
    · rw [Function.update_of_ne hid, statusOf]
      cases hfind : s.meetings.find id with
      | none => rfl
      | some m =>
        have hm : m.id = id := (Table.find_eq_some_iff.mp hfind).2
        simp [hm, hid]
  · rfl

theorem statusOf_markMeetingCompleted (durationSeconds : Option Float) (audioPath : Option String) :
    (markMeetingCompleted env s meetingId durationSeconds audioPath).2.statusOf =
      if env.ok 0 then
        Function.update s.statusOf meetingId ((s.statusOf meetingId).map fun _ => .completed)
      else s.statusOf := by
  rw [markMeetingCompleted]
  exact statusOf_updateById fun _ => rfl

theorem statusOf_markMeetingInterrupted :
    (markMeetingInterrupted env s meetingId).2.statusOf =
      if env.ok 0 then
        Function.update s.statusOf meetingId ((s.statusOf meetingId).map fun _ => .interrupted)
      else s.statusOf := by
  rw [markMeetingInterrupted]
  exact statusOf_updateById fun _ => rfl

theorem statusOf_markStale :
    (markStaleRecordingMeetingsInterrupted env s).2.statusOf =
      if env.ok 0 then StatusMove.swept.apply s.statusOf else s.statusOf := by
  rw [markStaleRecordingMeetingsInterrupted]
  split
  · funext id
    refine (statusOf_updateMeetings_apply id).trans ?_
    simp only [StatusMove.apply, statusOf, Option.map_map]
    congr 1
    funext m
    by_cases hm : m.status = .recording <;> simp [isRecording, hm]
  · rfl

theorem statusOf_insertMeeting {m : StoredMeeting} {hnew : m.key ∉ s.meetings.keys} :
    (s.insertMeeting m hnew).statusOf = Function.update s.statusOf m.key (some m.status) := by
  funext id
  rw [statusOf, insertMeeting, Table.find_insert]
  by_cases hid : id = m.key
  · simp [hid]
  · rw [Function.update_of_ne hid, if_neg (Ne.symm hid), statusOf]

theorem statusOf_deleteMeetingRow :
    (s.deleteMeetingRow meetingId).statusOf = Function.update s.statusOf meetingId none := by
  funext id
  by_cases hid : id = meetingId
  · rw [hid, Function.update_self, statusOf_eq_none_iff]
    exact Table.notMem_keys_deleteWhere
  · rw [Function.update_of_ne hid, statusOf, deleteMeetingRow, Table.find_deleteWhere_of_ne hid, statusOf]

/-- A deletion that says so has deleted the meeting and what refers to it, and any other has done
nothing. -/
theorem deleteMeeting_cases (env : SqlEnv) (s : MeetingStore) (meetingId : String) :
    ((deleteMeeting env s meetingId).1 = .ok true ∧ meetingId ∈ s.meetings.keys ∧
      (deleteMeeting env s meetingId).2 =
        ((s.deleteProcess meetingId).deleteTranscripts meetingId).deleteMeetingRow meetingId) ∨
    (deleteMeeting env s meetingId).1 ≠ .ok true ∧ (deleteMeeting env s meetingId).2 = s := by
  rw [deleteMeeting]
  split
  · exact .inr ⟨by simp, rfl⟩
  split
  · exact .inr ⟨by simp, rfl⟩
  split
  next success s' htransaction =>
    rw [deleteMeetingWithTransaction] at htransaction
    split at htransaction
    · cases htransaction
    split at htransaction
    · obtain ⟨hsuccess, rfl⟩ := Prod.mk.inj htransaction
      obtain rfl := Except.ok.inj hsuccess
      split <;> exact .inr ⟨by simp, rfl⟩
    next hmeeting =>
      split at htransaction
      · obtain ⟨hsuccess, rfl⟩ := Prod.mk.inj htransaction
        obtain rfl := Except.ok.inj hsuccess
        split
        · exact .inl ⟨rfl, not_not.mp hmeeting, rfl⟩
        · exact .inr ⟨by simp, rfl⟩
      · cases htransaction
  next => exact .inr ⟨by simp, rfl⟩

/-- A transcript that is saved adds its meeting. -/
theorem saveTranscript_cases (env : SqlEnv) (s : MeetingStore) (title : String)
    (transcripts : List TranscriptSegment) (folderPath : Option String) :
    (∃ meetingId db, TranscriptsRepository.saveTranscript env s.database transcripts =
        .ok (meetingId, db) ∧ ∃ hnew : meetingId ∉ s.meetings.keys,
      (saveTranscript env s title transcripts folderPath).2.meetings =
        s.meetings.insert (newMeeting meetingId title (env.now 0) folderPath .completed) hnew) ∨
    (∃ message, TranscriptsRepository.saveTranscript env s.database transcripts = .error message) ∧
      (saveTranscript env s title transcripts folderPath).2 = s := by
  rw [saveTranscript]
  split
  next meetingId db hsaved =>
    exact .inl ⟨meetingId, db, hsaved, (of_saveTranscript hsaved).2.1, rfl⟩
  next message hfail => exact .inr ⟨⟨message, hfail⟩, rfl⟩

/-- A note leaves the meetings and the items. -/
theorem insertNote_eq_ok {note : MeetingNote} (h : s.insertNote note = .ok s') :
    s'.meetings = s.meetings ∧ s'.actionItems = s.actionItems := by
  rw [insertNote] at h
  split_ifs at h
  obtain rfl := Except.ok.inj h
  exact ⟨rfl, rfl⟩

theorem createNote_leaves {body source : String} :
    (createNote env s meetingId body source).2.meetings = s.meetings ∧
      (createNote env s meetingId body source).2.actionItems = s.actionItems := by
  rw [createNote]
  simp only
  split
  · exact ⟨rfl, rfl⟩
  split
  · split
    · next hnote => exact insertNote_eq_ok hnote
    · exact ⟨rfl, rfl⟩
  · exact ⟨rfl, rfl⟩

theorem insertAgentNote_leaves {body now : String} :
    (insertAgentNote id meetingId body now s).2.meetings = s.meetings ∧
      (insertAgentNote id meetingId body now s).2.actionItems = s.actionItems := by
  rw [insertAgentNote]
  split
  · next hnote => exact insertNote_eq_ok hnote
  · exact ⟨rfl, rfl⟩

theorem statusOf_createRecordingMeeting {title : String} {folderPath : Option String}
    (hok : env.ok 0 = true) :
    (createRecordingMeeting env s meetingId title folderPath).2.statusOf =
      (StatusMove.started meetingId).apply s.statusOf := by
  rw [createRecordingMeeting, if_pos hok]
  split
  next hmem =>
    have hsome : s.statusOf meetingId ≠ none := mt statusOf_eq_none_iff.mp (not_not.mpr hmem)
    simp [StatusMove.apply, hsome]
  next hnew =>
    have hnone : s.statusOf meetingId = none := statusOf_eq_none_iff.mpr hnew
    simp [StatusMove.apply, hnone, statusOf_insertMeeting, newMeeting, StoredMeeting.key]

theorem statusOf_saveTranscript {title : String} {transcripts : List TranscriptSegment}
    {folderPath : Option String} :
    (saveTranscript env s title transcripts folderPath).2.statusOf =
      (moveOf ⟨env, .saveTranscript title transcripts folderPath⟩ s).elim s.statusOf
        fun move => move.apply s.statusOf := by
  rw [moveOf]
  obtain ⟨meetingId, db, hsaved, hnew, hmeetings⟩ | ⟨⟨message, hfail⟩, hsame⟩ :=
    saveTranscript_cases env s title transcripts folderPath
  · have hnone : s.statusOf meetingId = none := statusOf_eq_none_iff.mpr hnew
    simp only [hsaved, Option.elim_some, StatusMove.apply, if_pos hnone]
    exact (statusOf_congr (s := s.insertMeeting (newMeeting meetingId title (env.now 0) folderPath
      .completed) hnew) hmeetings).trans statusOf_insertMeeting
  · simp only [hfail, Option.elim_none]
    exact congrArg statusOf hsame

/-- **A call moves the status of the meetings as it should**, and only these calls do. -/
theorem statusOf_perform (ctx : StoreContext) (c : StoreCallAt) (s : MeetingStore) :
    (perform ctx c s).statusOf = (moveOf c s).elim s.statusOf fun move => move.apply s.statusOf := by
  obtain ⟨env, call⟩ := c
  cases call with
  | createRecordingMeeting meetingId title folderPath =>
    simp only [perform, moveOf]
    split
    next hok => exact statusOf_createRecordingMeeting hok
    next hno => rw [createRecordingMeeting, if_neg hno]; rfl
  | saveTranscript title transcripts folderPath => exact statusOf_saveTranscript
  | markCompleted meetingId durationSeconds audioPath =>
    refine (statusOf_markMeetingCompleted durationSeconds audioPath).trans ?_
    simp only [moveOf]
    split <;> rfl
  | markInterrupted meetingId =>
    refine statusOf_markMeetingInterrupted.trans ?_
    simp only [moveOf]
    split <;> rfl
  | sweep =>
    refine statusOf_markStale.trans ?_
    simp only [moveOf]
    split <;> rfl
  | deleteMeeting meetingId =>
    simp only [perform, moveOf]
    obtain ⟨hok, -, hdeleted⟩ | ⟨hno, hsame⟩ := deleteMeeting_cases env s meetingId
    · rw [hok, hdeleted]
      exact statusOf_deleteMeetingRow
    · rw [hsame]
      split
      next htrue => exact absurd htrue hno
      next => rfl
  | updateMeetingTitle meetingId newTitle =>
    simp only [perform, moveOf, updateMeetingTitle, updateMeetingName, Option.elim_none]
    split
    · rfl
    split
    · exact statusOf_updateMeetings fun _ => rfl
    · rfl
  | updateMeetingName meetingId newTitle =>
    simp only [perform, moveOf, updateMeetingName, Option.elim_none]
    split
    · exact statusOf_updateMeetings fun _ => rfl
    · rfl
  | replaceTranscripts | upsertTranscripts | relinkTranscripts | renameSpeaker | updateSpeakers =>
    exact statusOf_onTranscripts
  | createItem | setItemStatus | updateItem | deleteItem | replaceSummaryItems => exact statusOf_congr rfl
  | summary meetingId call => exact statusOf_onSummaries
  | createNote meetingId body source => exact statusOf_congr createNote_leaves.1
  | deleteNote id =>
    refine statusOf_congr ?_
    simp only [perform, deleteNote]
    split <;> rfl
  | agentNote meetingId body =>
    refine statusOf_congr ?_
    simp only [perform]
    split
    · exact insertAgentNote_leaves.1
    · rfl
  | agentItem meetingId text assignee dueHint =>
    refine statusOf_congr ?_
    simp only [perform]
    split <;> rfl
  | agentStatus id status =>
    refine statusOf_congr ?_
    simp only [perform]
    split <;> rfl

end Status

end MeetingStore

end MeetilyLocal
