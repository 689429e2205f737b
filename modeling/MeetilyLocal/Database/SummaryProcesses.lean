import MeetilyLocal.Database.Transcripts

/-!
# Summary processes

The `summary_processes` table, the embedding of `database/repositories/summary.rs`, of the end of
`SummaryService::process_transcript_background` and of `update_summary` of the MCP server. A
function that returns an error has changed nothing.

A reset keeps the summary of before in a backup column, and a run that fails or is cancelled
restores it. What is saved between the two is lost then; and what is saved where there is no row is
not stored at all. A run in which neither happens loses no summary (`neverLost_of_careful`).
-/

namespace MeetilyLocal

/-- A row of `summary_processes`. -/
structure SummaryProcess : Type where
  /-- where the generation stands -/
  status : String
  /-- when it was created -/
  createdAt : String
  /-- when it was last changed -/
  updatedAt : String
  /-- why the generation failed -/
  error : Option String
  /-- the summary, JSON -/
  result : Option String
  /-- when the generation started -/
  startTime : Option String
  /-- when it ended -/
  endTime : Option String
  /-- the number of chunks -/
  chunkCount : ℤ
  /-- seconds it took -/
  processingTime : Float
  /-- the summary before a regeneration -/
  resultBackup : Option String
  /-- when it was backed up -/
  resultBackupTimestamp : Option String

/-- The tables that summaries are in. -/
structure SummaryDatabase : Type where
  /-- when each meeting was last changed -/
  meetings : String → Option String
  /-- the `summary_processes` table, by meeting -/
  processes : String → Option SummaryProcess

namespace SummaryProcessesRepository

/-- `get_summary_data` -/
def getSummaryData (db : SummaryDatabase) (meetingId : String) : Option SummaryProcess :=
  db.processes meetingId

/-- `UPDATE summary_processes … WHERE meeting_id = ?` -/
def updateProcess (db : SummaryDatabase) (meetingId : String)
    (set : SummaryProcess → SummaryProcess) : SummaryDatabase :=
  { db with
    processes := Function.update db.processes meetingId ((db.processes meetingId).map set) }

/-- `INSERT INTO summary_processes … ON CONFLICT(meeting_id) DO UPDATE` -/
def upsertProcess (db : SummaryDatabase) (meetingId : String) (row : SummaryProcess)
    (set : SummaryProcess → SummaryProcess) : Except String SummaryDatabase :=
  if (db.processes meetingId).isSome then .ok (updateProcess db meetingId set)
  else if (db.meetings meetingId).isNone then .error "FOREIGN KEY constraint failed"
  else .ok { db with processes := Function.update db.processes meetingId (some row) }

/-- `update_meeting_summary`: the save of a user. Without a row the `UPDATE` changes nothing. -/
def updateMeetingSummary (env : SqlEnv) (db : SummaryDatabase) (meetingId : String)
    (summary : Option String) : Except String (Bool × SummaryDatabase) :=
  let rollback :=
    if env.ok 2 then .ok (false, db) else .error TranscriptsRepository.sqlError
  if !env.ok 0 || !env.ok 1 then .error TranscriptsRepository.sqlError
  else if (db.meetings meetingId).isNone then rollback
  else
    match summary with
    | none => rollback
    | some result =>
      if env.ok 2 && env.ok 3 && env.ok 4 then
        let saved := updateProcess db meetingId fun row =>
          { row with result := some result, updatedAt := env.now 0 }
        .ok (true, { saved with
          meetings := Function.update saved.meetings meetingId (some (env.now 0)) })
      else .error TranscriptsRepository.sqlError

/-- `create_or_reset_process` -/
def createOrResetProcess (env : SqlEnv) (db : SummaryDatabase) (meetingId : String) :
    Except String SummaryDatabase :=
  if env.ok 0 then
    let now := env.now 0
    upsertProcess db meetingId
      ⟨"PENDING", now, now, none, none, some now, none, 0, 0, none, none⟩ fun row =>
      { row with
        status := "PENDING", updatedAt := now, startTime := some now, resultBackup := row.result,
        resultBackupTimestamp := some now, error := none }
  else .error TranscriptsRepository.sqlError

/-- `update_process_completed` -/
def updateProcessCompleted (env : SqlEnv) (db : SummaryDatabase) (meetingId : String)
    (result : Option String) (chunkCount : ℤ) (processingTime : Float) :
    Except String SummaryDatabase :=
  match result with
  | none => .error "Failed to serialize result"
  | some result =>
    if env.ok 0 then
      .ok (updateProcess db meetingId fun row =>
        { row with
          status := "completed", result := some result, updatedAt := env.now 0,
          endTime := some (env.now 0), chunkCount, processingTime, error := none,
          resultBackup := none, resultBackupTimestamp := none })
    else .error TranscriptsRepository.sqlError

/-- Restore the backup if it exists, and keep the result otherwise. -/
def restoreBackup (env : SqlEnv) (db : SummaryDatabase) (meetingId status error : String) :
    Except String SummaryDatabase :=
  if env.ok 0 then
    .ok (updateProcess db meetingId fun row =>
      { row with
        status, error := some error, updatedAt := env.now 0, endTime := some (env.now 0),
        result := row.resultBackup.or row.result, resultBackup := none,
        resultBackupTimestamp := none })
  else .error TranscriptsRepository.sqlError

/-- `update_process_failed` -/
def updateProcessFailed (env : SqlEnv) (db : SummaryDatabase) (meetingId error : String) :
    Except String SummaryDatabase :=
  restoreBackup env db meetingId "failed" error

/-- `update_process_cancelled` -/
def updateProcessCancelled (env : SqlEnv) (db : SummaryDatabase) (meetingId : String) :
    Except String SummaryDatabase :=
  restoreBackup env db meetingId "cancelled" "Generation was cancelled by user"

/-! ## The MCP server -/

/-- Result of an `update_summary` call. -/
structure SummaryWrite : Type where
  /-- the status the row carries after the write -/
  status : String
  /-- when it was written -/
  updatedAt : String
  /-- the row was in the middle of a generation -/
  warning : Option String

/-- What `update_summary` answers, by the status it has read before it wrote. -/
def summaryWrite (existingStatus : Option String) (ts : String) : SummaryWrite where
  status := existingStatus.getD "completed"
  updatedAt := ts
  warning :=
    (existingStatus.filter fun s => s.toUpper == "PENDING" || s.toUpper == "PROCESSING").map fun s =>
      "Meetily is generating a summary for this meeting right now (status=" ++ s ++
      "). The summary was written, but the app will overwrite it when generation finishes."

/-- `update_summary` of the MCP server: the save of an agent. The write is tried four times. -/
def updateSummary (env : SqlEnv) (db : SummaryDatabase) (meetingId : String)
    (existingStatus : Option String) (markdown : String) :
    Except String (SummaryWrite × SummaryDatabase) :=
  let ts := env.now 0
  if (List.range 4).any fun attempt => env.ok (attempt + 1) then
    (upsertProcess db meetingId
      ⟨"completed", ts, ts, none, some markdown, none, none, 0, 0, none, none⟩ fun row =>
      { row with result := some markdown, updatedAt := ts }).map (summaryWrite existingStatus ts, ·)
  else .error TranscriptsRepository.sqlError

end SummaryProcessesRepository

open SummaryProcessesRepository

/-! ## Calls -/

/-- A call that writes the summary of a meeting. -/
inductive SummaryCall : Type where
  /-- a run begins -/
  | createOrReset : SummaryCall
  /-- a run has generated a summary, if it can be serialized -/
  | completed : Option String → ℤ → Float → SummaryCall
  /-- a run has failed, with its error -/
  | failed : String → SummaryCall
  /-- a run was cancelled -/
  | cancelled : SummaryCall
  /-- the user saves a summary, if it can be serialized -/
  | userSave : Option String → SummaryCall
  /-- an agent saves a summary, and has read the status before -/
  | agentSave : Option String → String → SummaryCall

/-- What `generate_meeting_summary` returns if it succeeds. -/
structure SummaryOutput : Type where
  /-- the summary -/
  markdown : String
  /-- the number of chunks that were processed -/
  chunksProcessed : ℤ

/-- How `process_transcript_background` ends: `generated` is what the generation has returned, and
`json` what is stored of a summary. -/
def processTranscriptBackground (json : SummaryOutput → Option String) (duration : Float)
    (generated : Except String SummaryOutput) : SummaryCall :=
  match generated with
  | .ok output =>
    if output.chunksProcessed = 0 ∧ output.markdown = "" then
      .failed "Summary generation failed: No content was processed."
    else .completed (json output) output.chunksProcessed duration
  | .error message =>
    if message.contains "cancelled" then .cancelled else .failed message

/-- A call for a meeting, with the outside it meets. -/
structure SummaryCallAt : Type where
  /-- what the outside decides about its statements -/
  env : SqlEnv
  /-- the meeting -/
  meetingId : String
  /-- the call -/
  call : SummaryCall

namespace SummaryCallAt

/-- Make a call: what it answers, and the tables behind it. -/
def perform (c : SummaryCallAt) (db : SummaryDatabase) : Except String (Bool × SummaryDatabase) :=
  match c.call with
  | .createOrReset => (createOrResetProcess c.env db c.meetingId).map (true, ·)
  | .completed result chunkCount processingTime =>
    (updateProcessCompleted c.env db c.meetingId result chunkCount processingTime).map (true, ·)
  | .failed error => (updateProcessFailed c.env db c.meetingId error).map (true, ·)
  | .cancelled => (updateProcessCancelled c.env db c.meetingId).map (true, ·)
  | .userSave summary => updateMeetingSummary c.env db c.meetingId summary
  | .agentSave existingStatus markdown =>
    (updateSummary c.env db c.meetingId existingStatus markdown).map fun write => (true, write.2)

/-- The summary that a call has stored if it succeeds. -/
def text (c : SummaryCallAt) : Option String :=
  match c.call with
  | .completed result _ _ => result
  | .userSave summary => summary
  | .agentSave _ markdown => some markdown
  | .createOrReset | .failed _ | .cancelled => none

/-- The number of runs behind a call. -/
def running (c : SummaryCallAt) (succeeds : Bool) (n : ℕ) : ℕ :=
  match c.call with
  | .createOrReset => if succeeds then n + 1 else n
  | .completed _ _ _ | .failed _ | .cancelled => n - 1
  | .userSave _ | .agentSave _ _ => n

end SummaryCallAt

/-- The summary of a meeting as it is stored. -/
def storedSummary (db : SummaryDatabase) (meetingId : String) : Option String :=
  (getSummaryData db meetingId).bind SummaryProcess.result

/-- The tables, and what has happened to the summary of one meeting. -/
structure SummaryAccount : Type where
  /-- the tables -/
  db : SummaryDatabase
  /-- the number of runs that have not ended -/
  running : ℕ
  /-- the summary of the most recent run that completed or save that succeeded -/
  latest : Option String

/-- A call, with what it means for the summary of a meeting. -/
def SummaryAccount.step (meetingId : String) (a : SummaryAccount) (c : SummaryCallAt) :
    SummaryAccount :=
  if c.meetingId = meetingId then
    match c.perform a.db with
    | .ok (true, db) => ⟨db, c.running true a.running, c.text.or a.latest⟩
    | .ok (false, db) => ⟨db, c.running true a.running, a.latest⟩
    | .error _ => ⟨a.db, c.running false a.running, a.latest⟩
  else
    match c.perform a.db with
    | .ok (_, db) => { a with db }
    | .error _ => a

/-- Once every run has ended, the stored summary is the latest. -/
def SummaryAccount.Kept (meetingId : String) (a : SummaryAccount) : Prop :=
  a.running = 0 → storedSummary a.db meetingId = a.latest

/-- A user who is told that the summary was saved reads it. -/
def SummaryCallAt.SavedIsRead (c : SummaryCallAt) (db : SummaryDatabase) : Prop :=
  ∀ summary db', c.call = .userSave summary →
    updateMeetingSummary c.env db c.meetingId summary = .ok (true, db') →
      ∃ row, getSummaryData db' c.meetingId = some row ∧ row.result = summary

/-- No summary of a meeting is lost, whenever in the calls one looks. -/
def NeverLost (meetingId : String) : SummaryAccount → List SummaryCallAt → Prop
  | a, [] => a.Kept meetingId
  | a, c :: calls =>
    a.Kept meetingId ∧ (c.meetingId = meetingId → c.SavedIsRead a.db) ∧
      NeverLost meetingId (a.step meetingId c) calls

/-! ## Calls that lose nothing -/

/-- A call that meets the tables in a state in which it loses nothing: a summary is saved, by a run
or by the user, where there is a row for it, and a run that fails finds no backup or one of the
summary that is stored. -/
def SummaryCallAt.Careful (c : SummaryCallAt) (db : SummaryDatabase) : Prop :=
  match c.call with
  | .completed _ _ _ => (db.processes c.meetingId).isSome
  | .userSave _ => (db.meetings c.meetingId).isSome → (db.processes c.meetingId).isSome
  | .failed _ | .cancelled => ∀ row, db.processes c.meetingId = some row →
      row.resultBackup = none ∨ row.resultBackup = row.result
  | .createOrReset | .agentSave _ _ => True

/-- Every call for a meeting is careful. -/
def CarefulCalls (meetingId : String) : SummaryAccount → List SummaryCallAt → Prop
  | _, [] => True
  | a, c :: calls =>
    (c.meetingId = meetingId → c.Careful a.db) ∧ CarefulCalls meetingId (a.step meetingId c) calls

variable {env : SqlEnv} {db db' : SummaryDatabase} {meetingId other : String}

/-! ### What a statement changes -/

@[simp]
theorem updateProcess_self (set : SummaryProcess → SummaryProcess) :
    (updateProcess db meetingId set).processes meetingId = (db.processes meetingId).map set :=
  Function.update_self _ _ _

theorem updateProcess_of_ne (set : SummaryProcess → SummaryProcess) (h : other ≠ meetingId) :
    (updateProcess db meetingId set).processes other = db.processes other :=
  Function.update_of_ne h _ _

/-- The stored summary is that of the row. -/
theorem storedSummary_congr (h : db'.processes other = db.processes other) :
    storedSummary db' other = storedSummary db other := by
  simp only [storedSummary, getSummaryData, h]

theorem storedSummary_updateProcess {row : SummaryProcess}
    (set : SummaryProcess → SummaryProcess) (hrow : db.processes meetingId = some row) :
    storedSummary (updateProcess db meetingId set) meetingId = (set row).result := by
  simp [storedSummary, getSummaryData, hrow]

theorem storedSummary_of_row {row : SummaryProcess} (hrow : db.processes meetingId = some row) :
    storedSummary db meetingId = row.result := by
  simp [storedSummary, getSummaryData, hrow]

theorem storedSummary_of_none (hrow : db.processes meetingId = none) :
    storedSummary db meetingId = none := by
  simp [storedSummary, getSummaryData, hrow]

/-- What a call has done that succeeds with an answer beside the tables. -/
theorem of_map_eq_ok {α β : Type} {x : Except String α} {f : α → SummaryDatabase} {b b' : β}
    (h : x.map (fun a => (b, f a)) = .ok (b', db')) : ∃ a, x = .ok a ∧ f a = db' ∧ b = b' := by
  rcases x with message | a
  · cases h
  · obtain ⟨hb, hf⟩ := Prod.mk.inj (Except.ok.inj h)
    exact ⟨a, rfl, hf, hb⟩

/-- An upsert that succeeds changes the row or inserts one. -/
theorem of_upsertProcess {row : SummaryProcess} {set : SummaryProcess → SummaryProcess}
    (h : upsertProcess db meetingId row set = .ok db') :
    db'.processes = Function.update db.processes meetingId
      (some (((db.processes meetingId).map set).getD row)) := by
  rw [upsertProcess] at h
  split at h
  · next hsome =>
    obtain ⟨before, hbefore⟩ := Option.isSome_iff_exists.mp hsome
    obtain rfl := Except.ok.inj h
    simp [updateProcess, hbefore]
  · next hnone =>
    split at h
    · cases h
    · obtain rfl := Except.ok.inj h
      simp only [Option.not_isSome_iff_eq_none.mp hnone, Option.map_none, Option.getD_none]

/-- A reset keeps the stored summary. -/
theorem storedSummary_createOrResetProcess (h : createOrResetProcess env db meetingId = .ok db') :
    storedSummary db' meetingId = storedSummary db meetingId := by
  rw [createOrResetProcess] at h
  split at h
  · have hrow := congrFun (of_upsertProcess h) meetingId
    rw [Function.update_self] at hrow
    rw [storedSummary_of_row hrow]
    rcases hbefore : db.processes meetingId with _ | before
    · exact (storedSummary_of_none hbefore).symm
    · exact (storedSummary_of_row hbefore).symm
  · cases h

/-- A run that completes stores its summary in the row there is. -/
theorem storedSummary_updateProcessCompleted {result : Option String} {chunkCount : ℤ}
    {processingTime : Float}
    (h : updateProcessCompleted env db meetingId result chunkCount processingTime = .ok db')
    (hrow : (db.processes meetingId).isSome) :
    result.isSome ∧ storedSummary db' meetingId = result := by
  obtain ⟨row, hrow⟩ := Option.isSome_iff_exists.mp hrow
  rcases result with _ | result
  · cases h
  · rw [updateProcessCompleted] at h
    split at h
    · obtain rfl := Except.ok.inj h
      exact ⟨rfl, storedSummary_updateProcess _ hrow⟩
    · cases h

/-- A run that fails keeps the stored summary exactly if there is no backup but of it. -/
theorem storedSummary_restoreBackup_iff {status error : String}
    (h : restoreBackup env db meetingId status error = .ok db') :
    storedSummary db' meetingId = storedSummary db meetingId ↔
      ∀ row, db.processes meetingId = some row →
        row.resultBackup = none ∨ row.resultBackup = row.result := by
  rw [restoreBackup] at h
  split at h
  · obtain rfl := Except.ok.inj h
    rcases hrow : db.processes meetingId with _ | row
    · refine iff_of_true (storedSummary_congr ?_) nofun
      rw [updateProcess_self, hrow, Option.map_none]
    · rw [storedSummary_updateProcess _ hrow, storedSummary_of_row hrow]
      constructor
      · intro hsame stored hstored
        obtain rfl := Option.some.inj hstored
        rcases hbackup : row.resultBackup with _ | backup
        · exact .inl rfl
        · simp only [hbackup, Option.some_or] at hsame
          exact .inr hsame
      · intro hcareful
        rcases hcareful row rfl with hnone | hsame
        · rw [hnone, Option.none_or]
        · rw [hsame, Option.or_self]
  · cases h

/-- What a save of the user does to the row. -/
theorem of_updateMeetingSummary {summary : Option String} {saved : Bool}
    (h : updateMeetingSummary env db meetingId summary = .ok (saved, db')) :
    (saved = false ∧ db' = db) ∨ ∃ result, saved = true ∧ summary = some result ∧
      (db.meetings meetingId).isSome ∧
      db'.processes = Function.update db.processes meetingId
        ((db.processes meetingId).map fun row =>
          { row with result := some result, updatedAt := env.now 0 }) := by
  have hrollback : (if env.ok 2 then Except.ok (false, db)
      else .error TranscriptsRepository.sqlError) = Except.ok (saved, db') →
      saved = false ∧ db' = db := by
    intro hok
    split at hok
    · obtain ⟨rfl, rfl⟩ := Prod.mk.inj (Except.ok.inj hok)
      exact ⟨rfl, rfl⟩
    · cases hok
  simp only [updateMeetingSummary] at h
  split at h
  · cases h
  split at h
  · exact .inl (hrollback h)
  next hmeeting =>
  rcases summary with _ | result
  · exact .inl (hrollback h)
  · simp only at h
    split at h
    · obtain ⟨rfl, rfl⟩ := Prod.mk.inj (Except.ok.inj h)
      exact .inr ⟨result, rfl, rfl, by simpa [Option.isSome_iff_ne_none] using hmeeting, rfl⟩
    · cases h

/-- A save of the user that says so is stored in the row there is. -/
theorem row_updateMeetingSummary {summary : Option String}
    (h : updateMeetingSummary env db meetingId summary = .ok (true, db'))
    (hrow : (db.meetings meetingId).isSome → (db.processes meetingId).isSome) :
    summary.isSome ∧
      ∃ row, getSummaryData db' meetingId = some row ∧ row.result = summary := by
  obtain ⟨hsaved, -⟩ | ⟨result, -, rfl, hmeeting, hprocesses⟩ := of_updateMeetingSummary h
  · cases hsaved
  · obtain ⟨before, hbefore⟩ := Option.isSome_iff_exists.mp (hrow hmeeting)
    refine ⟨rfl, { before with result := some result, updatedAt := env.now 0 }, ?_, rfl⟩
    rw [getSummaryData, hprocesses, Function.update_self, hbefore, Option.map_some]

/-- A save of an agent is stored. -/
theorem storedSummary_updateSummary {existingStatus : Option String} {markdown : String}
    {write : SummaryWrite}
    (h : updateSummary env db meetingId existingStatus markdown = .ok (write, db')) :
    storedSummary db' meetingId = some markdown := by
  rw [updateSummary] at h
  split at h
  · obtain ⟨saved, hupsert, rfl, -⟩ := of_map_eq_ok h
    have hrow := congrFun (of_upsertProcess hupsert) meetingId
    rw [Function.update_self] at hrow
    rw [storedSummary_of_row hrow]
    cases db.processes meetingId <;> rfl
  · cases h

/-! ### What a call changes -/

/-- A call leaves the rows of other meetings alone. -/
theorem processes_perform_of_ne {c : SummaryCallAt} {reported : Bool}
    (h : c.perform db = .ok (reported, db')) (hne : other ≠ c.meetingId) :
    db'.processes other = db.processes other := by
  obtain ⟨env, meetingId, call⟩ := c
  have hupsert : ∀ {row set saved}, upsertProcess db meetingId row set = .ok saved →
      saved.processes other = db.processes other := by
    intro row set saved hsaved
    rw [of_upsertProcess hsaved, Function.update_of_ne hne]
  have hrestore : ∀ {status error saved}, restoreBackup env db meetingId status error = .ok saved →
      saved.processes other = db.processes other := by
    intro status error saved hsaved
    rw [restoreBackup] at hsaved
    split at hsaved
    · rw [← Except.ok.inj hsaved, updateProcess_of_ne _ hne]
    · cases hsaved
  cases call with
  | createOrReset =>
    obtain ⟨saved, hsaved, rfl, -⟩ := of_map_eq_ok h
    rw [createOrResetProcess] at hsaved
    split at hsaved
    · exact hupsert hsaved
    · cases hsaved
  | completed result chunkCount processingTime =>
    obtain ⟨saved, hsaved, rfl, -⟩ := of_map_eq_ok h
    rcases result with _ | result
    · cases hsaved
    · rw [updateProcessCompleted] at hsaved
      split at hsaved
      · rw [← Except.ok.inj hsaved, updateProcess_of_ne _ hne]
      · cases hsaved
  | failed error =>
    obtain ⟨saved, hsaved, rfl, -⟩ := of_map_eq_ok h
    exact hrestore hsaved
  | cancelled =>
    obtain ⟨saved, hsaved, rfl, -⟩ := of_map_eq_ok h
    exact hrestore hsaved
  | userSave summary =>
    obtain ⟨-, rfl⟩ | ⟨result, -, -, -, hprocesses⟩ := of_updateMeetingSummary h
    · rfl
    · rw [hprocesses, Function.update_of_ne hne]
  | agentSave existingStatus markdown =>
    obtain ⟨write, hwrite, rfl, -⟩ := of_map_eq_ok h
    rw [updateSummary] at hwrite
    split at hwrite
    · obtain ⟨saved, hsaved, rfl, -⟩ := of_map_eq_ok hwrite
      exact hupsert hsaved
    · cases hwrite

/-- A careful call that succeeds stores its summary, if it has one. -/
theorem storedSummary_perform {c : SummaryCallAt} (hcareful : c.Careful db)
    (h : c.perform db = .ok (true, db')) :
    storedSummary db' c.meetingId = c.text.or (storedSummary db c.meetingId) := by
  obtain ⟨env, meetingId, call⟩ := c
  cases call with
  | createOrReset =>
    obtain ⟨saved, hsaved, rfl, -⟩ := of_map_eq_ok h
    exact storedSummary_createOrResetProcess hsaved
  | completed result chunkCount processingTime =>
    obtain ⟨saved, hsaved, rfl, -⟩ := of_map_eq_ok h
    obtain ⟨hsome, hstored⟩ := storedSummary_updateProcessCompleted hsaved hcareful
    obtain ⟨text, rfl⟩ := Option.isSome_iff_exists.mp hsome
    exact hstored
  | failed error =>
    obtain ⟨saved, hsaved, rfl, -⟩ := of_map_eq_ok h
    exact (storedSummary_restoreBackup_iff hsaved).mpr hcareful
  | cancelled =>
    obtain ⟨saved, hsaved, rfl, -⟩ := of_map_eq_ok h
    exact (storedSummary_restoreBackup_iff hsaved).mpr hcareful
  | userSave summary =>
    obtain ⟨hsome, row, hrow, hresult⟩ := row_updateMeetingSummary h hcareful
    obtain ⟨text, rfl⟩ := Option.isSome_iff_exists.mp hsome
    exact (storedSummary_of_row hrow).trans hresult
  | agentSave existingStatus markdown =>
    obtain ⟨write, hwrite, rfl, -⟩ := of_map_eq_ok h
    exact storedSummary_updateSummary hwrite

/-- Only a save of the user says that it was not done, and then it has changed nothing. -/
theorem storedSummary_perform_false {c : SummaryCallAt} (h : c.perform db = .ok (false, db')) :
    db' = db := by
  obtain ⟨env, meetingId, call⟩ := c
  cases call with
  | userSave summary =>
    obtain ⟨-, rfl⟩ | ⟨_, hsaved, -⟩ := of_updateMeetingSummary h
    · rfl
    · cases hsaved
  | createOrReset | completed | failed | cancelled | agentSave =>
    obtain ⟨_, -, -, hreported⟩ := of_map_eq_ok h
    cases hreported

/-! ## Runs -/

variable {a : SummaryAccount}

/-- However a run ends, and whether or not this can be stored, it is no longer running. -/
theorem running_processTranscriptBackground (json : SummaryOutput → Option String)
    (duration : Float) (generated : Except String SummaryOutput) (succeeds : Bool) (n : ℕ) :
    (⟨env, meetingId, processTranscriptBackground json duration generated⟩ :
      SummaryCallAt).running succeeds n = n - 1 := by
  rcases generated with message | output
  · simp only [processTranscriptBackground]
    split <;> rfl
  · simp only [processTranscriptBackground]
    split <;> rfl

/-- A careful call keeps the stored summary the latest. -/
theorem storedSummary_step {c : SummaryCallAt}
    (hcareful : c.meetingId = meetingId → c.Careful a.db)
    (hstored : storedSummary a.db meetingId = a.latest) :
    storedSummary (a.step meetingId c).db meetingId = (a.step meetingId c).latest := by
  rw [SummaryAccount.step]
  split
  · next hmeeting =>
    subst hmeeting
    split
    · next hperform =>
      rw [storedSummary_perform (hcareful rfl) hperform, hstored]
    · next hperform =>
      rw [storedSummary_perform_false hperform, hstored]
    · exact hstored
  · next hother =>
    split
    · next hperform =>
      rw [storedSummary_congr (processes_perform_of_ne hperform (Ne.symm hother)), hstored]
    · exact hstored

/-- **No summary is lost.** In every sequence of runs, saves of the user and saves of agents, for
one meeting among others, whatever fails: if every call for the meeting is careful, the stored
summary is that of the most recent run that completed or save that succeeded, and a user who is
told that the summary was saved reads it. -/
theorem neverLost_of_careful {calls : List SummaryCallAt}
    (hstored : storedSummary a.db meetingId = a.latest) (hcareful : CarefulCalls meetingId a calls) :
    NeverLost meetingId a calls := by
  induction calls generalizing a with
  | nil => exact fun _ => hstored
  | cons c calls ih =>
    obtain ⟨hcall, hcalls⟩ := hcareful
    refine ⟨fun _ => hstored, ?_, ih (storedSummary_step hcall hstored) hcalls⟩
    intro hmeeting summary db' huser hsave
    have hrow : (a.db.meetings c.meetingId).isSome → (a.db.processes c.meetingId).isSome := by
      have := hcall hmeeting
      rw [SummaryCallAt.Careful, huser] at this
      exact this
    exact (row_updateMeetingSummary hsave hrow).2

/-! ### An edit that is lost -/

/-- A call for a meeting with which nothing goes wrong. -/
def calmCall (call : SummaryCall) : SummaryCallAt :=
  ⟨⟨fun _ => true, fun _ => "2026-01-01T10:00:00+00:00", fun k => toString k⟩, "meeting-1", call⟩

/-- A meeting without a summary. -/
def unsummarized : SummaryAccount :=
  ⟨⟨fun id => if id = "meeting-1" then some "2026-01-01T09:00:00+00:00" else none, fun _ => none⟩,
    0, none⟩

/-- A summary is generated and edited, and a regeneration fails. -/
def editedBefore : List SummaryCallAt :=
  [.createOrReset, .completed (some "generated") 1 2.5, .userSave (some "edited"), .createOrReset,
    .failed "connection refused"].map calmCall

/-- A summary is generated, and edited while a regeneration runs that fails. -/
def editedMeanwhile : List SummaryCallAt :=
  [.createOrReset, .completed (some "generated") 1 2.5, .createOrReset, .userSave (some "edited"),
    .failed "connection refused"].map calmCall

theorem neverLost_editedBefore : NeverLost "meeting-1" unsummarized editedBefore := by
  refine neverLost_of_careful rfl ?_
  refine ⟨fun _ => trivial, fun _ => rfl, fun _ _ => rfl, fun _ => trivial, fun _ row hrow => ?_,
    trivial⟩
  obtain rfl := Option.some.inj hrow
  exact .inr rfl

/-- The edit is lost. -/
theorem not_neverLost_editedMeanwhile :
    ¬∀ (meetingId : String) (a : SummaryAccount) (calls : List SummaryCallAt),
      storedSummary a.db meetingId = a.latest → NeverLost meetingId a calls := by
  intro h
  obtain ⟨-, -, -, -, -, -, -, -, -, -, hkept⟩ :=
    h "meeting-1" unsummarized editedMeanwhile rfl
  have hlost : some "generated" = some "edited" := hkept rfl
  simp at hlost

end MeetilyLocal
