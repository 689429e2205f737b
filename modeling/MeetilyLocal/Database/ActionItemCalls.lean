import MeetilyLocal.Database.ActionItems
import MeetilyLocal.Library.Tables

/-!
# Single action items

The functions of `database/repositories/action_item.rs` that make, change and delete one item, and
those by which the MCP server makes one and sets its status. Each writes in one statement and reads the
item back in another, so that it can fail after it has written.

What they write is tidy (`Tidy`): the status is one of the two that there are, and the time at
which an item was done is there if and only if it is done.
-/

namespace MeetilyLocal

namespace ActionItemsRepository

open TranscriptsRepository

/-! ## The code -/

/-- `STATUS_DONE` -/
def statusDone : String := "done"

/-- `SOURCE_MANUAL` -/
def sourceManual : String := "manual"

/-- `SOURCE_AGENT` -/
def sourceAgent : String := "agent"

/-- The `action_items` table. -/
def table (db : ActionDatabase) : Table ActionItem.id := ⟨db.items, db.distinct⟩

/-- Put a table in the place of `action_items`. -/
def withTable (db : ActionDatabase) (t : Table ActionItem.id) : ActionDatabase :=
  ⟨db.meetings, t.rows, t.distinct⟩

/-- `get_by_id` -/
def getById (db : ActionDatabase) (id : String) : Option ActionItem := (table db).find id

/-- Read back what was written; that is statement 1. -/
def readBack (env : SqlEnv) (db : ActionDatabase) (id : String) : Except String (Option ActionItem) :=
  if env.ok 1 then .ok (getById db id) else .error sqlError

/-- `UPDATE action_items SET … WHERE id = ?`, and what comes of it: none if there is no such item. -/
def updateById (env : SqlEnv) (db : ActionDatabase) (id : String) (set : ActionItem → ActionItem)
    (hset : ∀ item, (set item).id = item.id) : Except String (Option ActionItem) × ActionDatabase :=
  if env.ok 0 then
    let db' := withTable db ((table db).updateWhere (fun item => item.id = id) set hset)
    if id ∈ (table db).keys then (readBack env db' id, db') else (.ok none, db')
  else (.error sqlError, db)

/-- Trim, then map an empty string to NULL. -/
def blankToNone (s : String) : Option String :=
  let t := trim s.toList
  if t.isEmpty then none else some (String.ofList t)

/-- A new item: it always starts `open`. -/
def newItem (id meetingId : String) (text : List Char) (item : NewActionItem) (source now : String) :
    ActionItem where
  id := id
  meetingId := meetingId
  text := String.ofList text
  assignee := item.assignee
  dueHint := item.dueHint
  status := statusOpen
  source := source
  externalRef := none
  sourceStartSecs := none
  sourceEndSecs := none
  sourceQuote := none
  createdAt := now
  updatedAt := now
  completedAt := none

/-- `create`: the text is trimmed, and rejected if it is empty. -/
def create (env : SqlEnv) (db : ActionDatabase) (meetingId : String) (item : NewActionItem)
    (source : String) : Except String ActionItem × ActionDatabase :=
  let text := trim item.text.toList
  if text.isEmpty then (.error "action item text cannot be empty", db)
  else if env.ok 0 then
    let id := "action-" ++ env.uuid 0
    match insertItem db (newItem id meetingId text item source (env.now 0)) with
    | .ok db' =>
      match readBack env db' id with
      | .ok (some item) => (.ok item, db')
      | .ok none =>
        (.error "no rows returned by a query that expected to return at least one row", db')
      | .error message => (.error message, db')
    | .error message => (.error message, db)
  else (.error sqlError, db)

/-- A row whose status is set, with the time at which it was done. -/
def statusSet (status now : String) (item : ActionItem) : ActionItem :=
  { item with
    status, completedAt := if status = statusDone then some now else none, updatedAt := now }

/-- `set_status` -/
def setStatus (env : SqlEnv) (db : ActionDatabase) (id status : String) :
    Except String (Option ActionItem) × ActionDatabase :=
  if status ≠ statusOpen ∧ status ≠ statusDone then
    (.error ("invalid action item status '" ++ status ++ "': expected 'open' or 'done'"), db)
  else updateById env db id (statusSet status (env.now 0)) fun _ => rfl

/-- A row whose fields are patched: each argument is "leave unchanged" if there is none. -/
def patched (text assignee dueHint : Option String) (now : String) (item : ActionItem) : ActionItem :=
  { item with
    text := text.elim item.text fun t => String.ofList (trim t.toList)
    assignee := assignee.elim item.assignee blankToNone
    dueHint := dueHint.elim item.dueHint blankToNone
    updatedAt := now }

/-- `update` -/
def update (env : SqlEnv) (db : ActionDatabase) (id : String) (text assignee dueHint : Option String) :
    Except String (Option ActionItem) × ActionDatabase :=
  if text.any fun t => (trim t.toList).isEmpty then (.error "action item text cannot be empty", db)
  else if text.isNone && assignee.isNone && dueHint.isNone then (readBack env db id, db)
  else updateById env db id (patched text assignee dueHint (env.now 0)) fun _ => rfl

/-- `delete` -/
def delete (env : SqlEnv) (db : ActionDatabase) (id : String) : Except String Bool × ActionDatabase :=
  if env.ok 0 then
    (.ok (decide (id ∈ (table db).keys)),
      withTable db ((table db).deleteWhere fun item => item.id = id))
  else (.error sqlError, db)

/-! ## What an item looks like -/

/-- The status is `open` and there is no time at which it was done, or it is `done` and there is one. -/
def Timed (item : ActionItem) : Prop :=
  item.status = statusOpen ∧ item.completedAt = none ∨
    item.status = statusDone ∧ item.completedAt ≠ none

/-- The text can be acted on. -/
def Worded (text : String) : Prop := trim text.toList ≠ []

/-- An item is tidy. -/
structure Tidy (item : ActionItem) : Prop where
  /-- its status goes with the time at which it was done -/
  timed : Timed item
  /-- its text is not blank -/
  worded : Worded item.text

variable {env : SqlEnv} {db : ActionDatabase} {id meetingId status now : String} {item : ActionItem}
  {P : ActionItem → Prop}

/-- Trimming twice is trimming once. -/
theorem trim_trim (text : List Char) : trim (trim text) = trim text := trimBy_trimBy isWhiteSpace text

theorem worded_ofList_trim {text : List Char} (h : (trim text).isEmpty = false) :
    Worded (String.ofList (trim text)) := by
  rw [Worded, String.toList_ofList, trim_trim]
  simpa using h

theorem timed_statusSet (h : ¬(status ≠ statusOpen ∧ status ≠ statusDone)) :
    Timed (statusSet status now item) := by
  by_cases hdone : status = statusDone
  · exact .inr ⟨hdone, by simp [statusSet, hdone]⟩
  · refine .inl ⟨?_, by simp [statusSet, hdone]⟩
    by_contra hopen
    exact h ⟨hopen, hdone⟩

end ActionItemsRepository

end MeetilyLocal
