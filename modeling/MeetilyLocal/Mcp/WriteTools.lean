import MeetilyLocal.Database.StoreRuns
import MeetilyLocal.Library.Retry

/-!
# The tools that write

The four tools of the MCP server that write, with the functions of its `db.rs` below them: `add_meeting_note`,
`create_action_item`, `set_action_item_status` and `update_summary`. A write is tried up to four times if
SQLite says that the database is locked (`withWriteRetry`), and between any two statements of a tool the
application, or another agent, may write (`ToolEnv.others`).

A tool that succeeds has written once, and one that fails not at all, unless what it says is that what it
has written could not be read back (`callTool_once`).
-/

namespace MeetilyLocal

open ActionItemsRepository MeetingPage MeetingStore SummaryProcessesRepository TranscriptsRepository

namespace Mcp

/-! ## Retrying a write -/

/-- An error of a statement. -/
structure SqlError : Type where
  /-- the code, of an error that the database reports -/
  code : Option ℕ
  /-- what it says -/
  message : String

/-- `is_locked_error`: `SQLITE_BUSY` or `SQLITE_LOCKED`, or one of their extended variants. -/
def isLockedError (e : SqlError) : Bool := e.code.any fun code => code % 256 = 5 || code % 256 = 6

/-- A constraint that is violated: `SQLITE_CONSTRAINT_FOREIGNKEY` or `SQLITE_CONSTRAINT_PRIMARYKEY`. -/
def constraintError (message : String) : SqlError :=
  ⟨some (if message = "FOREIGN KEY constraint failed" then 787 else 1555), message⟩

/-- `ATTEMPTS` -/
def attempts : ℕ := 4

/-- What the outside decides about the call of a tool. -/
structure ToolEnv : Type where
  /-- what texts are compared by, and so on -/
  ctx : StoreContext
  /-- the calls of others behind the statement with this number -/
  others : ℕ → List StoreCallAt
  /-- why the check that the meeting exists fails -/
  check : Option SqlError
  /-- why the `SELECT` of the status of a summary fails -/
  status : Option SqlError
  /-- why the attempt at the write with this number fails, for a reason other than its row -/
  attempt : ℕ → Option SqlError
  /-- why reading back fails -/
  readBack : Option SqlError
  /-- `now()` -/
  now : String
  /-- `new_id()` -/
  newId : String

namespace ToolEnv

variable (env : ToolEnv)

/-- Another attempt is made if the database is locked, and others write before it. -/
def policy : RetryPolicy SqlError MeetingStore where
  retryable := isLockedError
  pause k s := (.ok (), run env.ctx (env.others k) s)

/-- One attempt: SQLite executes the statement, or it does not. -/
def tried {α : Type} (write : MeetingStore → Except String α × MeetingStore) (k : ℕ)
    (s : MeetingStore) : Except SqlError α × MeetingStore :=
  match env.attempt k with
  | some e => (.error e, s)
  | none =>
    match write s with
    | (.ok a, s') => (.ok a, s')
    | (.error message, s') => (.error (constraintError message), s')

/-- `with_write_retry`; the statements have the numbers from 2 on. -/
def withWriteRetry {α : Type} (write : MeetingStore → Except String α × MeetingStore)
    (s : MeetingStore) : Except SqlError α × MeetingStore :=
  env.policy.run (env.tried write) (attempts - 1) 2 s

end ToolEnv

/-! ## The functions of `db.rs` -/

/-- `meeting_exists` -/
def meetingExists (s : MeetingStore) (meetingId : String) : Bool := meetingId ∈ s.meetings.keys

/-- An action item, as the tools return it. -/
structure ToolActionItem : Type where
  /-- primary key -/
  id : String
  /-- the meeting it is of -/
  meetingId : String
  /-- the title of that -/
  meetingTitle : String
  /-- what is to be done -/
  text : String
  /-- who is to do it -/
  assignee : Option String
  /-- until when, as it was said -/
  dueHint : Option String
  /-- `open` or `done` -/
  status : String
  /-- `summary`, `manual` or `agent` -/
  source : String
  /-- id in a tracker outside -/
  externalRef : Option String
  /-- when it was made -/
  createdAt : String
  /-- when it was last changed -/
  updatedAt : String
  /-- when it was done -/
  completedAt : Option String

/-- `get_action_item` -/
def getActionItem (s : MeetingStore) (id : String) : Option ToolActionItem :=
  (s.actionItems.find id).bind fun item => (s.meetings.find item.meetingId).map fun m =>
    ⟨item.id, item.meetingId, m.title, item.text, item.assignee, item.dueHint, item.status, item.source,
      item.externalRef, item.createdAt, item.updatedAt, item.completedAt⟩

/-- The statement of `update_summary`. -/
def upsertSummary (meetingId markdown ts : String) (db : SummaryDatabase) :
    Except String (Unit × SummaryDatabase) :=
  (upsertProcess db meetingId
    ⟨"completed", ts, ts, none, some markdown, none, none, 0, 0, none, none⟩ fun row =>
    { row with result := some markdown, updatedAt := ts }).map ((), ·)

theorem keepsSummaries_upsertSummary (meetingId markdown ts : String) :
    KeepsSummaries (upsertSummary meetingId markdown ts) := by
  intro db u db' h hdb
  obtain ⟨saved, hsaved, rfl, -⟩ := of_map_eq_ok h
  exact ofMeetings_upsertProcess hsaved hdb

/-! ## The tools -/

/-- A call of a tool, with the arguments of the agent. -/
inductive ToolCall : Type where
  /-- `add_meeting_note`: meeting and body -/
  | addMeetingNote : String → String → ToolCall
  /-- `create_action_item`: meeting, text, assignee and due hint -/
  | createActionItem : String → String → Option String → Option String → ToolCall
  /-- `set_action_item_status`: item and status -/
  | setActionItemStatus : String → String → ToolCall
  /-- `update_summary`: meeting and markdown -/
  | updateSummary : String → String → ToolCall

/-- What a tool answers if it succeeds. -/
inductive ToolAnswer : Type where
  /-- the note that was added -/
  | note : MeetingNote → ToolAnswer
  /-- the item, as it was read back -/
  | item : ToolActionItem → ToolAnswer
  /-- the meeting whose summary was written, and what became of that -/
  | summary : String → SummaryWrite → ToolAnswer

/-- What a tool answers if it fails. -/
inductive ToolError : Type where
  /-- `ErrorData::invalid_params` -/
  | invalidParams : String → ToolError
  /-- `ErrorData::internal_error` -/
  | internalError : String → ToolError

/-- `db_err` -/
def dbErr (context : String) (e : SqlError) : ToolError :=
  .internalError (context ++ ": " ++ e.message)

/-- `not_found` -/
def notFound (debug : List Char → List Char) (what id : String) : ToolError :=
  .invalidParams ("no " ++ what ++ " with id " ++ String.ofList (debug id.toList) ++
    ". Use `list_meetings` to find valid ids.")

namespace ToolEnv

variable (env : ToolEnv)

/-- The check that the meeting exists, and what follows if it does. -/
def withMeeting (s : MeetingStore) (meetingId : String)
    (next : MeetingStore → Except ToolError ToolAnswer × MeetingStore) :
    Except ToolError ToolAnswer × MeetingStore :=
  match env.check with
  | some e => (.error (dbErr "failed to check meeting" e), s)
  | none =>
    if meetingExists s meetingId then next (run env.ctx (env.others 0) s)
    else (.error (notFound env.ctx.debug "meeting" meetingId), s)

/-- Read an item back; `gone` is what is answered if it is not there. -/
def readItemBack (s : MeetingStore) (id : String) (gone : ToolError) :
    Except ToolError ToolAnswer × MeetingStore :=
  let s' := run env.ctx (env.others 6) s
  match env.readBack with
  | some e => (.error (dbErr "failed to read back action item" e), s')
  | none =>
    match getActionItem s' id with
    | some item => (.ok (.item item), s')
    | none => (.error gone, s')

/-- `add_meeting_note` -/
def addMeetingNote (s : MeetingStore) (meetingId body : String) :
    Except ToolError ToolAnswer × MeetingStore :=
  match requireNonempty body "body" with
  | .error message => (.error (.invalidParams message), s)
  | .ok body => env.withMeeting s meetingId fun s =>
    match env.withWriteRetry (insertAgentNote env.newId meetingId body env.now) s with
    | (.ok _, s') => (.ok (.note ⟨env.newId, meetingId, body, sourceAgent, env.now⟩), s')
    | (.error e, s') => (.error (dbErr "failed to add note" e), s')

/-- What `create_action_item` answers if the item is not there. -/
def createdButGone : ToolError :=
  .internalError "action item was created but could not be read back"

/-- `create_action_item` -/
def createActionItem (s : MeetingStore) (meetingId text : String) (assignee dueHint : Option String) :
    Except ToolError ToolAnswer × MeetingStore :=
  match requireNonempty text "text" with
  | .error message => (.error (.invalidParams message), s)
  | .ok text => env.withMeeting s meetingId fun s =>
    match env.withWriteRetry (insertAgentItem (agentItem env.newId meetingId text (optional assignee)
        (optional dueHint) env.now)) s with
    | (.ok _, s') => env.readItemBack s' env.newId createdButGone
    | (.error e, s') => (.error (dbErr "failed to create action item" e), s')

/-- `set_action_item_status` -/
def setActionItemStatus (s : MeetingStore) (actionItemId status : String) :
    Except ToolError ToolAnswer × MeetingStore :=
  match validateStatus env.ctx.debug status with
  | .error message => (.error (.invalidParams message), s)
  | .ok status =>
    match env.withWriteRetry (updateAgentStatus actionItemId status env.now) s with
    | (.ok affected, s') =>
      if affected = 0 then
        (.error (.invalidParams ("no action item with id " ++
          String.ofList (env.ctx.debug actionItemId.toList) ++
          ". Use `get_action_items` to find valid ids.")), s')
      else env.readItemBack s' actionItemId (notFound env.ctx.debug "action item" actionItemId)
    | (.error e, s') => (.error (dbErr "failed to update action item" e), s')

/-- The write of `update_summary`. -/
def writeSummary (meetingId markdown : String) (s : MeetingStore) : Except String Unit × MeetingStore :=
  s.onSummaries (upsertSummary meetingId markdown env.now)
    (keepsSummaries_upsertSummary meetingId markdown env.now)

/-- `update_summary`: the status is read before the write. -/
def updateSummary (s : MeetingStore) (meetingId markdown : String) :
    Except ToolError ToolAnswer × MeetingStore :=
  match requireNonempty markdown "markdown" with
  | .error message => (.error (.invalidParams message), s)
  | .ok markdown => env.withMeeting s meetingId fun s =>
    match env.status with
    | some e => (.error (dbErr "failed to update summary" e), s)
    | none =>
      let existingStatus := (s.processes meetingId).map (·.status)
      match env.withWriteRetry (env.writeSummary meetingId markdown) (run env.ctx (env.others 1) s) with
      | (.ok _, s') => (.ok (.summary meetingId (summaryWrite existingStatus env.now)), s')
      | (.error e, s') => (.error (dbErr "failed to update summary" e), s')

/-- Call a tool. -/
def callTool (s : MeetingStore) : ToolCall → Except ToolError ToolAnswer × MeetingStore
  | .addMeetingNote meetingId body => env.addMeetingNote s meetingId body
  | .createActionItem meetingId text assignee dueHint =>
    env.createActionItem s meetingId text assignee dueHint
  | .setActionItemStatus actionItemId status => env.setActionItemStatus s actionItemId status
  | .updateSummary meetingId markdown => env.updateSummary s meetingId markdown

/-! ## What a tool has written -/

/-- The write of a tool, as one statement that is executed once. -/
inductive Writes : ToolCall → MeetingStore → MeetingStore → Prop
  /-- the note is inserted -/
  | note {meetingId body text : String} {s s' : MeetingStore} :
      requireNonempty body "body" = .ok text →
      insertAgentNote env.newId meetingId text env.now s = (.ok (), s') →
      Writes (.addMeetingNote meetingId body) s s'
  /-- the item is inserted -/
  | item {meetingId text trimmed : String} {assignee dueHint : Option String} {s s' : MeetingStore} :
      requireNonempty text "text" = .ok trimmed →
      insertAgentItem (agentItem env.newId meetingId trimmed (optional assignee) (optional dueHint)
        env.now) s = (.ok (), s') →
      Writes (.createActionItem meetingId text assignee dueHint) s s'
  /-- the status is set, of an item that there is -/
  | status {actionItemId status normalized : String} {affected : ℕ} {s s' : MeetingStore} :
      validateStatus env.ctx.debug status = .ok normalized → affected ≠ 0 →
      updateAgentStatus actionItemId normalized env.now s = (.ok affected, s') →
      Writes (.setActionItemStatus actionItemId status) s s'
  /-- the summary is inserted or replaced -/
  | summary {meetingId markdown trimmed : String} {s s' : MeetingStore} :
      requireNonempty markdown "markdown" = .ok trimmed →
      env.writeSummary meetingId trimmed s = (.ok (), s') →
      Writes (.updateSummary meetingId markdown) s s'

/-- Only calls of others lead from one store to another. -/
def Led (s s' : MeetingStore) : Prop :=
  ∃ calls, (∀ c ∈ calls, ∃ n, c ∈ env.others n) ∧ s' = run env.ctx calls s

/-- An error that says that what was written could not be read back. -/
inductive IsReadBack : ToolCall → ToolError → Prop
  /-- the `SELECT` fails -/
  | failed (call : ToolCall) (e : SqlError) :
      env.readBack = some e → IsReadBack call (dbErr "failed to read back action item" e)
  /-- a new item is gone by then -/
  | created (meetingId text : String) (assignee dueHint : Option String) :
      IsReadBack (.createActionItem meetingId text assignee dueHint) createdButGone
  /-- an item is gone by then -/
  | updated (actionItemId status : String) :
      IsReadBack (.setActionItemStatus actionItemId status)
        (notFound env.ctx.debug "action item" actionItemId)

/-- What a tool has done: it has written once, and others before and behind it, or it has failed and only
others have written. -/
inductive Outcome (call : ToolCall) (s : MeetingStore) : Except ToolError ToolAnswer × MeetingStore → Prop
  /-- it has written -/
  | written {answer : Except ToolError ToolAnswer} {t u final : MeetingStore} :
      env.Led s t → env.Writes call t u → env.Led u final →
      (∀ e, answer = .error e → env.IsReadBack call e) → Outcome call s (answer, final)
  /-- it has not -/
  | failed {e : ToolError} {final : MeetingStore} : env.Led s final → Outcome call s (.error e, final)

end ToolEnv

section Once

variable {env : ToolEnv} {s s' t : MeetingStore} {call : ToolCall}

theorem ToolEnv.Led.refl (env : ToolEnv) (s : MeetingStore) : env.Led s s := ⟨[], by simp, rfl⟩

theorem ToolEnv.Led.trans (h : env.Led s s') (h' : env.Led s' t) : env.Led s t := by
  obtain ⟨calls, hcalls, rfl⟩ := h
  obtain ⟨calls', hcalls', rfl⟩ := h'
  refine ⟨calls ++ calls', fun c hc => ?_, by rw [run, run, run, List.foldl_append]⟩
  obtain hc | hc := List.mem_append.mp hc
  · exact hcalls c hc
  · exact hcalls' c hc

theorem ToolEnv.led_others (env : ToolEnv) (n : ℕ) (s : MeetingStore) :
    env.Led s (run env.ctx (env.others n) s) := ⟨env.others n, fun _ hc => ⟨n, hc⟩, rfl⟩

/-- A write that changes nothing if it fails. -/
def FailsClean {α : Type} (write : MeetingStore → Except String α × MeetingStore) : Prop :=
  ∀ s message s', write s = (.error message, s') → s' = s

theorem atomic_tried {α : Type} {write : MeetingStore → Except String α × MeetingStore}
    (hwrite : FailsClean write) : RetryPolicy.Atomic (env.tried write) := by
  intro k s e s' h
  rw [ToolEnv.tried] at h
  split at h
  · exact (Prod.mk.inj h).2.symm
  · split at h
    · cases h
    next message s₁ hfail =>
      obtain ⟨-, rfl⟩ := Prod.mk.inj h
      exact hwrite s message s₁ hfail

/-- A write that is retried is made once, as the last thing, or not at all. -/
theorem withWriteRetry_once {α : Type} {write : MeetingStore → Except String α × MeetingStore}
    (hwrite : FailsClean write) (s : MeetingStore) :
    ∃ t, env.Led s t ∧
      ((∃ a s', env.withWriteRetry write s = (.ok a, s') ∧ write t = (.ok a, s')) ∨
        ∃ e, env.withWriteRetry write s = (.error e, t)) := by
  obtain ⟨j, t, hled, hlast⟩ := RetryPolicy.once env.policy (n := attempts - 1) (k := 2)
    (atomic_tried hwrite) (I := fun _ t => env.Led s t)
    (fun k t h => h.trans (env.led_others k t)) (.refl env s)
  refine ⟨t, hled, ?_⟩
  obtain ⟨a, hok, hop⟩ | ⟨e, herror, hleft⟩ := hlast
  · refine .inl ⟨a, (env.withWriteRetry write s).2, Prod.ext hok rfl, ?_⟩
    have htried : env.tried write j t = (.ok a, (env.withWriteRetry write s).2) :=
      hop.trans (Prod.ext hok rfl)
    rw [ToolEnv.tried] at htried
    split at htried
    · cases htried
    · split at htried
      next hwritten =>
        obtain ⟨ha, hs⟩ := Prod.mk.inj htried
        rw [hwritten, Except.ok.inj ha, hs]
      next => cases htried
  · exact .inr ⟨e, Prod.ext herror hleft⟩

theorem failsClean_insertAgentNote (id meetingId body now : String) :
    FailsClean (insertAgentNote id meetingId body now) := by
  intro s message s' h
  rw [insertAgentNote] at h
  split at h
  · cases h
  · exact (Prod.mk.inj h).2.symm

/-- A function that leaves the items as they are leaves the store as it is. -/
theorem onActionItems_eq_self {α : Type} {f : ActionDatabase → Except String α × ActionDatabase}
    (hf : KeepsActionItems f) (h : (f s.actionDatabase).2 = s.actionDatabase) :
    (s.onActionItems f hf).2 = s := by
  rw [onActionItems]
  simp only [h]
  rfl

theorem failsClean_insertAgentItem (row : ActionItem) : FailsClean (insertAgentItem row) := by
  intro s message s' h
  obtain ⟨hfail, rfl⟩ := Prod.mk.inj h
  refine onActionItems_eq_self (keepsActionItems_insertItemRow row) ?_
  rw [insertItemRow] at hfail ⊢
  split at hfail
  · cases hfail
  · rfl

theorem failsClean_updateAgentStatus (id status now : String) :
    FailsClean (updateAgentStatus id status now) := by
  intro s message s' h
  cases (Prod.mk.inj h).1

theorem failsClean_writeSummary (env : ToolEnv) (meetingId markdown : String) :
    FailsClean (env.writeSummary meetingId markdown) := by
  intro s message s' h
  rw [ToolEnv.writeSummary, onSummaries] at h
  split at h
  · cases h
  · exact (Prod.mk.inj h).2.symm

/-- A status that is set of an item that there is not changes nothing. -/
theorem updateAgentStatus_zero {id status now : String}
    (h : updateAgentStatus id status now s = (.ok 0, s')) : s' = s := by
  obtain ⟨hcount, rfl⟩ := Prod.mk.inj h
  have hnone : ∀ item ∈ s.actionItems.rows, decide (item.id = id) = false := by
    have hzero := List.countP_eq_zero.mp (Except.ok.inj hcount)
    intro item hitem
    simpa using hzero item hitem
  have hrows : (s.actionItems.rows.map fun item =>
      if decide (item.id = id) then statusSet status now item else item) = s.actionItems.rows := by
    refine (List.map_congr_left fun item hitem => ?_).trans (List.map_id _)
    rw [hnone item hitem]
    rfl
  refine onActionItems_eq_self (keepsActionItems_updateItemStatus id status now) ?_
  rw [updateItemStatus, withTable, ActionDatabase.mk.injEq]
  exact ⟨rfl, hrows⟩

/-- A check that fails writes nothing, and otherwise the tool goes on. -/
theorem outcome_withMeeting {meetingId : String}
    {next : MeetingStore → Except ToolError ToolAnswer × MeetingStore}
    (h : ∀ t, env.Outcome call t (next t)) : env.Outcome call s (env.withMeeting s meetingId next) := by
  rw [ToolEnv.withMeeting]
  split
  · exact .failed (.refl env s)
  split
  · have hled := env.led_others 0 s
    generalize run env.ctx (env.others 0) s = t at hled
    have hnext := h t
    generalize next t = result at hnext
    cases hnext with
    | written hbefore hwrites hafter herror =>
      exact .written (hled.trans hbefore) hwrites hafter herror
    | failed hbefore => exact .failed (hled.trans hbefore)
  · exact .failed (.refl env s)

/-- Reading back changes nothing, and says so if it fails. -/
theorem readItemBack_spec (id : String) (gone : ToolError) :
    env.Led s (env.readItemBack s id gone).2 ∧
      ∀ e, (env.readItemBack s id gone).1 = .error e →
        (∃ err, env.readBack = some err ∧ e = dbErr "failed to read back action item" err) ∨
          e = gone := by
  have hled := env.led_others 6 s
  rw [ToolEnv.readItemBack]
  split
  next err hread =>
    refine ⟨hled, ?_⟩
    rintro e ⟨⟩
    exact .inl ⟨err, hread, rfl⟩
  · split
    · refine ⟨hled, ?_⟩
      rintro e ⟨⟩
    · refine ⟨hled, ?_⟩
      rintro e ⟨⟩
      exact .inr rfl

theorem outcome_addMeetingNote (s : MeetingStore) (meetingId body : String) :
    env.Outcome (.addMeetingNote meetingId body) s (env.addMeetingNote s meetingId body) := by
  rw [ToolEnv.addMeetingNote]
  split
  · exact .failed (.refl env s)
  next text htext =>
    refine outcome_withMeeting fun s => ?_
    obtain ⟨t, hled, ⟨a, s', hok, hwrite⟩ | ⟨e, hfail⟩⟩ := withWriteRetry_once
      (failsClean_insertAgentNote env.newId meetingId text env.now) s
    · rw [hok]
      exact .written hled (.note htext hwrite) (.refl env s') (by simp)
    · rw [hfail]
      exact .failed hled

theorem outcome_createActionItem (s : MeetingStore) (meetingId text : String)
    (assignee dueHint : Option String) :
    env.Outcome (.createActionItem meetingId text assignee dueHint) s
      (env.createActionItem s meetingId text assignee dueHint) := by
  rw [ToolEnv.createActionItem]
  split
  · exact .failed (.refl env s)
  next trimmed htext =>
    refine outcome_withMeeting fun s => ?_
    obtain ⟨t, hled, ⟨a, s', hok, hwrite⟩ | ⟨e, hfail⟩⟩ := withWriteRetry_once
      (failsClean_insertAgentItem (agentItem env.newId meetingId trimmed (optional assignee)
        (optional dueHint) env.now)) s
    · rw [hok]
      obtain ⟨hback, herror⟩ := readItemBack_spec (s := s') env.newId ToolEnv.createdButGone
      refine .written hled (.item htext hwrite) hback fun e he => ?_
      obtain ⟨err, hread, rfl⟩ | rfl := herror e he
      · exact .failed _ err hread
      · exact .created meetingId text assignee dueHint
    · rw [hfail]
      exact .failed hled

theorem outcome_setActionItemStatus (s : MeetingStore) (actionItemId status : String) :
    env.Outcome (.setActionItemStatus actionItemId status) s
      (env.setActionItemStatus s actionItemId status) := by
  rw [ToolEnv.setActionItemStatus]
  split
  · exact .failed (.refl env s)
  next normalized hstatus =>
    obtain ⟨t, hled, ⟨affected, s', hok, hwrite⟩ | ⟨e, hfail⟩⟩ := withWriteRetry_once
      (failsClean_updateAgentStatus actionItemId normalized env.now) s
    · rw [hok]
      simp only
      split
      next hzero =>
        subst hzero
        rw [updateAgentStatus_zero hwrite]
        exact .failed hled
      next hne =>
        obtain ⟨hback, herror⟩ := readItemBack_spec (s := s') actionItemId
          (notFound env.ctx.debug "action item" actionItemId)
        refine .written hled (.status hstatus hne hwrite) hback fun e he => ?_
        obtain ⟨err, hread, rfl⟩ | rfl := herror e he
        · exact .failed _ err hread
        · exact .updated actionItemId status
    · rw [hfail]
      exact .failed hled

theorem outcome_updateSummary (s : MeetingStore) (meetingId markdown : String) :
    env.Outcome (.updateSummary meetingId markdown) s (env.updateSummary s meetingId markdown) := by
  rw [ToolEnv.updateSummary]
  split
  · exact .failed (.refl env s)
  next trimmed htext =>
    refine outcome_withMeeting fun s => ?_
    split
    · exact .failed (.refl env s)
    · simp only
      obtain ⟨t, hled, ⟨a, s', hok, hwrite⟩ | ⟨e, hfail⟩⟩ := withWriteRetry_once
        (failsClean_writeSummary env meetingId trimmed) (run env.ctx (env.others 1) s)
      · rw [hok]
        exact .written ((env.led_others 1 s).trans hled) (.summary htext hwrite) (.refl env s') (by simp)
      · rw [hfail]
        exact .failed ((env.led_others 1 s).trans hled)

/-- **A tool writes once or not at all**, whatever the application and other agents do between its
statements, and however often the database is locked: if it succeeds, its write has been executed once,
between calls of others; if it fails, nothing but calls of others has been, unless the error is that what
it has written could not be read back. -/
theorem callTool_once (env : ToolEnv) (s : MeetingStore) (call : ToolCall) :
    env.Outcome call s (env.callTool s call) := by
  cases call with
  | addMeetingNote meetingId body => exact outcome_addMeetingNote s meetingId body
  | createActionItem meetingId text assignee dueHint =>
    exact outcome_createActionItem s meetingId text assignee dueHint
  | setActionItemStatus actionItemId status => exact outcome_setActionItemStatus s actionItemId status
  | updateSummary meetingId markdown => exact outcome_updateSummary s meetingId markdown

end Once

end Mcp

end MeetilyLocal
