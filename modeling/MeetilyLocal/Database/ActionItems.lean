import MeetilyLocal.Database.Transcripts
import MeetilyLocal.Library.GreedyMatching
import MeetilyLocal.Library.Lowercase
import MeetilyLocal.Library.OrderBy
import MeetilyLocal.Library.Words

/-!
# Action items

`replace_summary_items` of `database/repositories/action_item.rs`: the action items that were extracted
from a summary are deleted and those of a new extraction are inserted, in one transaction. An item
whose text is that of a deleted one, up to case, white space and periods at the end, keeps its id, its
status and when it was made.

A deleted item is carried over at most once, so a text that is there more than once keeps as many as
there were of it (`conserved_replaceSummaryItems`). A second extraction of the same items changes
nothing but the time of the update (`replaceSummaryItems_again`).
-/

namespace MeetilyLocal

/-- A row of `action_items`. -/
structure ActionItem : Type where
  /-- primary key -/
  id : String
  /-- the meeting it is of -/
  meetingId : String
  /-- what is to be done -/
  text : String
  /-- who is to do it -/
  assignee : Option String
  /-- until when, as it was said -/
  dueHint : Option String
  /-- `open` or `done` -/
  status : String
  /-- `summary`, `manual` or `agent` -/
  source : String
  /-- id in a tracker outside -/
  externalRef : Option String
  /-- where the segment it was found in starts -/
  sourceStartSecs : Option Float
  /-- where it ends -/
  sourceEndSecs : Option Float
  /-- the sentence it was found in -/
  sourceQuote : Option String
  /-- when it was made -/
  createdAt : String
  /-- when it was last changed -/
  updatedAt : String
  /-- when it was done -/
  completedAt : Option String

/-- An action item about to be written. -/
structure NewActionItem : Type where
  /-- what is to be done -/
  text : String
  /-- who is to do it -/
  assignee : Option String
  /-- until when, as it was said -/
  dueHint : Option String
  /-- where the segment it was found in starts -/
  sourceStartSecs : Option Float
  /-- where it ends -/
  sourceEndSecs : Option Float
  /-- the sentence it was found in -/
  sourceQuote : Option String

/-- The tables. -/
structure ActionDatabase : Type where
  /-- the ids of the meetings -/
  meetings : List String
  /-- the `action_items` table -/
  items : List ActionItem
  /-- `id TEXT PRIMARY KEY` -/
  distinct : (items.map ActionItem.id).Nodup

namespace ActionItemsRepository

/-- `STATUS_OPEN` -/
def statusOpen : String := "open"

/-- `SOURCE_SUMMARY` -/
def sourceSummary : String := "summary"

/-- The items that the extractor owns:
`WHERE meeting_id = ? AND source = 'summary'` -/
def isOwned (meetingId : String) (item : ActionItem) : Bool :=
  item.meetingId == meetingId && item.source == sourceSummary

/-- `normalize_text_key` -/
def normalizeTextKey (tables : CaseTables) (text : String) : List Char :=
  (tables.lowercase (joinWords (splitWhitespace text.toList))).rdropWhile (· == '.')

/-- `INSERT INTO action_items` -/
def insertItem (db : ActionDatabase) (item : ActionItem) : Except String ActionDatabase :=
  if h : item.id ∈ db.items.map ActionItem.id then
    .error "UNIQUE constraint failed: action_items.id"
  else if !db.meetings.contains item.meetingId then .error "FOREIGN KEY constraint failed"
  else .ok
    { meetings := db.meetings
      items := db.items ++ [item]
      distinct := by
        rw [List.map_append, List.map_singleton]
        exact List.nodup_append.mpr ⟨db.distinct, List.nodup_singleton _, by
          rintro id hid _ hin rfl
          rw [List.mem_singleton.mp hin] at hid
          exact h hid⟩ }

/-- `DELETE FROM action_items WHERE meeting_id = ? AND source = 'summary'` -/
def deleteOwned (db : ActionDatabase) (meetingId : String) : ActionDatabase where
  meetings := db.meetings
  items := db.items.filter fun item => !isOwned meetingId item
  distinct := db.distinct.sublist (List.filter_sublist.map ActionItem.id)

/-- The row that is inserted for an item, with what is carried over from an old one. -/
def itemRow (freshId meetingId now : String) (carried : Option ActionItem) (item : NewActionItem) :
    ActionItem where
  id := carried.elim freshId (·.id)
  meetingId := meetingId
  text := item.text
  assignee := item.assignee
  dueHint := item.dueHint
  status := carried.elim statusOpen (·.status)
  source := sourceSummary
  externalRef := carried.bind (·.externalRef)
  sourceStartSecs := TranscriptsRepository.bindFloat item.sourceStartSecs
  sourceEndSecs := TranscriptsRepository.bindFloat item.sourceEndSecs
  sourceQuote := item.sourceQuote
  createdAt := carried.elim now (·.createdAt)
  updatedAt := now
  completedAt := carried.bind (·.completedAt)

/-- The old item that a new one is: the first with its key that was not claimed before. -/
def carriedOf (tables : CaseTables) (previous : List ActionItem) (claimed : List String)
    (item : NewActionItem) : Option ActionItem :=
  previous.find? fun p =>
    normalizeTextKey tables p.text = normalizeTextKey tables item.text && !claimed.contains p.id

/-- The loop over the items; the statements have the numbers from `k` on. -/
def writeItems (tables : CaseTables) (env : SqlEnv) (meetingId now : String)
    (previous : List ActionItem) :
    ℕ → List String → ActionDatabase → List NewActionItem → Except String ActionDatabase
  | _, _, db, [] => .ok db
  | k, claimed, db, item :: items =>
    let carried := carriedOf tables previous claimed item
    if env.ok k then
      match insertItem db (itemRow ("action-" ++ env.uuid k) meetingId now carried item) with
      | .ok db => writeItems tables env meetingId now previous (k + 1)
          (claimed ++ (carried.map (·.id)).toList) db items
      | .error message => .error message
    else .error TranscriptsRepository.sqlError

/-- The statements of the transaction: to begin, to select, to delete, to insert and to commit. The
query has no `ORDER BY`. -/
def replaceStatements (tables : CaseTables) (env : SqlEnv) (order : Arrangement ActionItem)
    (db : ActionDatabase) (meetingId : String) (items : List NewActionItem) :
    Except String (ℕ × ActionDatabase) :=
  if env.ok 0 && env.ok 1 && env.ok 2 then
    let previous := order.arrange (db.items.filter (isOwned meetingId))
    match writeItems tables env meetingId (env.now 0) previous 3 [] (deleteOwned db meetingId) items with
    | .ok db =>
      if env.ok (items.length + 3) then .ok (items.length, db)
      else .error TranscriptsRepository.sqlError
    | .error message => .error message
  else .error TranscriptsRepository.sqlError

/-- `replace_summary_items`: what it answers, and the tables behind it. -/
def replaceSummaryItems (tables : CaseTables) (env : SqlEnv) (order : Arrangement ActionItem)
    (db : ActionDatabase) (meetingId : String) (items : List NewActionItem) :
    Except String ℕ × ActionDatabase :=
  match replaceStatements tables env order db meetingId items with
  | .ok (written, db) => (.ok written, db)
  | .error message => (.error message, db)

/-! ## What is stored -/

/-- The rows for some items, with what is carried over for each; the statements have the numbers from
`k` on. -/
def rowsFrom (env : SqlEnv) (meetingId now : String) :
    ℕ → List (Option ActionItem) → List NewActionItem → List ActionItem
  | k, carried :: more, item :: items =>
    itemRow ("action-" ++ env.uuid k) meetingId now carried item ::
      rowsFrom env meetingId now (k + 1) more items
  | _, _, _ => []

/-- The table is as it should be after an extraction. -/
structure Conserved (tables : CaseTables) (env : SqlEnv) (db : ActionDatabase) (meetingId : String)
    (items : List NewActionItem) (db' : ActionDatabase) : Prop where
  /-- the items that the extractor does not own are untouched -/
  others : (db'.items.filter fun item => !isOwned meetingId item) =
    db.items.filter fun item => !isOwned meetingId item
  /-- there is one of its own for each item, in order, with what is carried over for it -/
  stored : ∃ carried : List (Option ActionItem), carried.length = items.length ∧
    db'.items.filter (isOwned meetingId) = rowsFrom env meetingId (env.now 0) 3 carried items ∧
    -- from an item with its key
    List.Forall₂ (fun (found : Option ActionItem) item => ∀ p ∈ found,
      normalizeTextKey tables p.text = normalizeTextKey tables item.text) carried items ∧
    -- no item is carried over twice
    (∃ rest, (carried.reduceOption ++ rest).Perm (db.items.filter (isOwned meetingId))) ∧
    -- and of each key as many as there are before and now
    ∀ key, carried.reduceOption.countP (normalizeTextKey tables ·.text = key) =
      min ((db.items.filter (isOwned meetingId)).countP (normalizeTextKey tables ·.text = key))
        (items.countP (normalizeTextKey tables ·.text = key))

/-- An item that the extractor owns was updated. -/
def touch (meetingId now : String) (item : ActionItem) : ActionItem :=
  if isOwned meetingId item then { item with updatedAt := now } else item

section Stored

variable {tables : CaseTables} {env env' : SqlEnv} {order : Arrangement ActionItem}
  {db db' : ActionDatabase} {meetingId now : String} {previous : List ActionItem} {k : ℕ}
  {claimed : List String} {items : List NewActionItem} {item : NewActionItem} {row : ActionItem}
  {carried : List (Option ActionItem)}

/-- What the items of a batch get of the old ones. -/
def carriedBy (tables : CaseTables) (previous : List ActionItem) (claimed : List String)
    (items : List NewActionItem) : List (Option ActionItem) :=
  assign (fun p : ActionItem => normalizeTextKey tables p.text) ActionItem.id previous claimed
    (items.map fun item => normalizeTextKey tables item.text)

theorem insertItem_eq_ok (h : insertItem db row = .ok db') :
    db'.meetings = db.meetings ∧ db'.items = db.items ++ [row] ∧ row.meetingId ∈ db.meetings := by
  rw [insertItem] at h
  split_ifs at h with hid hmeeting
  obtain rfl := Except.ok.inj h
  exact ⟨rfl, rfl, by simpa using hmeeting⟩

theorem exists_insertItem (hid : row.id ∉ db.items.map ActionItem.id)
    (hmeeting : row.meetingId ∈ db.meetings) : ∃ db', insertItem db row = .ok db' := by
  rw [insertItem, dif_neg hid, if_neg (by simpa using hmeeting)]
  exact ⟨_, rfl⟩

/-- What the loop inserts. -/
theorem writeItems_eq_ok
    (h : writeItems tables env meetingId now previous k claimed db items = .ok db') :
    db'.meetings = db.meetings ∧
      db'.items = db.items ++
        rowsFrom env meetingId now k (carriedBy tables previous claimed items) items ∧
      (items ≠ [] → meetingId ∈ db.meetings) := by
  induction items generalizing k claimed db with
  | nil =>
    obtain rfl := Except.ok.inj h
    exact ⟨rfl, (List.append_nil _).symm, by simp⟩
  | cons item items ih =>
    rw [writeItems] at h
    split at h
    · split at h
      next db₁ hinsert =>
        obtain ⟨hmeetings, hitems, hmeeting⟩ := insertItem_eq_ok hinsert
        obtain ⟨hmeetings', hitems', -⟩ := ih h
        refine ⟨hmeetings'.trans hmeetings, ?_, fun _ => hmeeting⟩
        rw [hitems', hitems, List.append_assoc]
        rfl
      next => cases h
    · cases h

/-- It inserts them if no id is there twice. -/
theorem exists_writeItems (hok : ∀ k, env.ok k = true)
    (hmeeting : items ≠ [] → meetingId ∈ db.meetings)
    (hids : ((db.items ++ rowsFrom env meetingId now k (carriedBy tables previous claimed items)
      items).map ActionItem.id).Nodup) :
    ∃ db', writeItems tables env meetingId now previous k claimed db items = .ok db' := by
  induction items generalizing k claimed db with
  | nil => exact ⟨db, rfl⟩
  | cons item items ih =>
    have hrows : rowsFrom env meetingId now k (carriedBy tables previous claimed (item :: items))
        (item :: items) =
        itemRow ("action-" ++ env.uuid k) meetingId now (carriedOf tables previous claimed item) item ::
          rowsFrom env meetingId now (k + 1) (carriedBy tables previous (claimed ++
            ((carriedOf tables previous claimed item).map (·.id)).toList) items) items := rfl
    rw [hrows] at hids
    have hid : (itemRow ("action-" ++ env.uuid k) meetingId now
        (carriedOf tables previous claimed item) item).id ∉ db.items.map ActionItem.id := by
      rw [(List.perm_middle.map ActionItem.id).nodup_iff, List.map_cons, List.nodup_cons,
        List.map_append, List.mem_append, not_or] at hids
      exact hids.1.1
    obtain ⟨db₁, hinsert⟩ := exists_insertItem hid (hmeeting (by simp))
    obtain ⟨hmeetings, hitems, -⟩ := insertItem_eq_ok hinsert
    rw [writeItems]
    simp only [hok, if_true, hinsert]
    apply ih
    · intro _
      rw [hmeetings]
      exact hmeeting (by simp)
    · rw [hitems, List.append_assoc]
      exact hids

theorem isOwned_of_mem_rowsFrom (h : row ∈ rowsFrom env meetingId now k carried items) :
    isOwned meetingId row = true := by
  induction items generalizing k carried with
  | nil => cases carried <;> cases h
  | cons item items ih =>
    cases carried with
    | nil => cases h
    | cons c carried =>
      rcases List.mem_cons.mp h with rfl | h
      · simp [isOwned, itemRow]
      · exact ih h

/-- The rows have the texts of the items. -/
theorem map_text_rowsFrom {β : Type} (f : String → β) (hlen : carried.length = items.length) :
    (rowsFrom env meetingId now k carried items).map (fun row => f row.text) =
      items.map fun item => f item.text := by
  induction items generalizing k carried with
  | nil => cases carried <;> rfl
  | cons item items ih =>
    obtain _ | ⟨c, carried⟩ := carried
    · cases hlen
    · rw [rowsFrom, List.map_cons, List.map_cons, ih (Nat.succ.inj hlen)]
      rfl

/-- A row that is carried over to its own item is updated. -/
theorem rowsFrom_again {now' : String} {k' : ℕ} (hlen : carried.length = items.length) :
    rowsFrom env' meetingId now' k' ((rowsFrom env meetingId now k carried items).map some) items =
      (rowsFrom env meetingId now k carried items).map (touch meetingId now') := by
  induction items generalizing k k' carried with
  | nil => cases carried <;> rfl
  | cons item items ih =>
    obtain _ | ⟨c, carried⟩ := carried
    · cases hlen
    · have htouch : touch meetingId now' (itemRow ("action-" ++ env.uuid k) meetingId now c item) =
          itemRow ("action-" ++ env'.uuid k') meetingId now'
            (some (itemRow ("action-" ++ env.uuid k) meetingId now c item)) item := by
        rw [touch, if_pos (by simp [isOwned, itemRow])]
        rfl
      rw [rowsFrom, List.map_cons, List.map_cons, rowsFrom, ih (Nat.succ.inj hlen), htouch]

theorem deleteOwned_items : (deleteOwned db meetingId).items =
    db.items.filter fun item => !isOwned meetingId item := rfl

/-- What a transaction that is committed leaves. -/
theorem replaceStatements_eq_ok {written : ℕ}
    (h : replaceStatements tables env order db meetingId items = .ok (written, db')) :
    written = items.length ∧ db'.meetings = db.meetings ∧
      db'.items = (db.items.filter fun item => !isOwned meetingId item) ++
        rowsFrom env meetingId (env.now 0) 3
          (carriedBy tables (order.arrange (db.items.filter (isOwned meetingId))) [] items) items ∧
      (items ≠ [] → meetingId ∈ db.meetings) := by
  rw [replaceStatements] at h
  split at h
  · simp only at h
    split at h
    next hwrite =>
      split at h
      · obtain ⟨rfl, rfl⟩ := Prod.mk.inj (Except.ok.inj h)
        exact ⟨rfl, writeItems_eq_ok hwrite⟩
      · cases h
    next => cases h
  · cases h

theorem arrange_nodup (order : Arrangement ActionItem) (db : ActionDatabase) (meetingId : String) :
    ((order.arrange (db.items.filter (isOwned meetingId))).map ActionItem.id).Nodup := by
  rw [((order.perm _).map ActionItem.id).nodup_iff]
  exact db.distinct.sublist (List.filter_sublist.map ActionItem.id)

/-- What is carried over is what a greedy matching by keys gives. -/
theorem carriedBy_eq (tables : CaseTables) (order : Arrangement ActionItem) (db : ActionDatabase) (meetingId : String)
    (items : List NewActionItem) :
    carriedBy tables (order.arrange (db.items.filter (isOwned meetingId))) [] items =
      greedy (fun p : ActionItem => normalizeTextKey tables p.text)
        (order.arrange (db.items.filter (isOwned meetingId)))
        (items.map fun item => normalizeTextKey tables item.text) := by
  rw [carriedBy, assign_eq_greedy (arrange_nodup order db meetingId)]
  simp

/-- The rows that are stored are exactly those that the extractor owns. -/
theorem filter_rows {rows : List ActionItem} (hrows : ∀ row ∈ rows, isOwned meetingId row = true)
    (hitems : db'.items = (db.items.filter fun item => !isOwned meetingId item) ++ rows) :
    db'.items.filter (isOwned meetingId) = rows ∧
      (db'.items.filter fun item => !isOwned meetingId item) =
        db.items.filter fun item => !isOwned meetingId item := by
  rw [hitems, List.filter_append, List.filter_append, List.filter_filter, List.filter_filter]
  have hnone : rows.filter (fun item => !isOwned meetingId item) = [] := by
    rw [List.filter_eq_nil_iff]
    intro row hrow
    simp [hrows row hrow]
  rw [hnone, List.filter_eq_self.mpr hrows]
  simp

theorem conserved_of_replaceStatements {written : ℕ}
    (h : replaceStatements tables env order db meetingId items = .ok (written, db')) :
    Conserved tables env db meetingId items db' := by
  obtain ⟨-, -, hitems, -⟩ := replaceStatements_eq_ok h
  obtain ⟨hown, hothers⟩ := filter_rows (fun _ => isOwned_of_mem_rowsFrom) hitems
  have hcarried := carriedBy_eq tables order db meetingId items
  refine ⟨hothers, _, ?_, hown, ?_, ?_, ?_⟩
  · rw [hcarried, length_greedy, List.length_map]
  · rw [hcarried]
    have hkeys := forall₂_greedy (fun p : ActionItem => normalizeTextKey tables p.text)
      (order.arrange (db.items.filter (isOwned meetingId)))
      (items.map fun item => normalizeTextKey tables item.text)
    exact List.forall₂_map_right_iff.mp hkeys
  · rw [hcarried]
    obtain ⟨rest, hperm⟩ := greedy_perm (fun p : ActionItem => normalizeTextKey tables p.text)
      (order.arrange (db.items.filter (isOwned meetingId)))
      (items.map fun item => normalizeTextKey tables item.text)
    exact ⟨rest, hperm.trans (order.perm _)⟩
  · intro key
    rw [hcarried, greedy_countP, (order.perm _).countP_eq, List.countP_map]
    rfl

/-- What a second extraction of the same items carries over: all that the first one has stored. SQLite
gives out the rows of a meeting in the order in which they are stored. -/
theorem carriedBy_again {written : ℕ}
    (h : replaceStatements tables env order db meetingId items = .ok (written, db')) (env' : SqlEnv) :
    (db'.items.filter fun item => !isOwned meetingId item) ++
        rowsFrom env' meetingId (env'.now 0) 3
          (carriedBy tables (db'.items.filter (isOwned meetingId)) [] items) items =
      db'.items.map (touch meetingId (env'.now 0)) := by
  obtain ⟨-, -, hitems, -⟩ := replaceStatements_eq_ok h
  obtain ⟨hown, hothers⟩ := filter_rows (fun _ => isOwned_of_mem_rowsFrom) hitems
  have hcarried : carriedBy tables (db'.items.filter (isOwned meetingId)) [] items =
      greedy (fun p : ActionItem => normalizeTextKey tables p.text)
        (db'.items.filter (isOwned meetingId))
        (items.map fun item => normalizeTextKey tables item.text) :=
    carriedBy_eq tables (.stored _) db' meetingId items
  have hlen : (carriedBy tables (order.arrange (db.items.filter (isOwned meetingId))) [] items).length =
      items.length := by
    rw [carriedBy_eq, length_greedy, List.length_map]
  rw [hown, ← map_text_rowsFrom (normalizeTextKey tables) hlen, greedy_map] at hcarried
  have huntouched : (db.items.filter fun item => !isOwned meetingId item).map
      (touch meetingId (env'.now 0)) = db.items.filter fun item => !isOwned meetingId item := by
    rw [List.map_congr_left (g := id), List.map_id]
    intro item hitem
    have hnot := (List.mem_filter.mp hitem).2
    rw [touch, if_neg (by simpa using hnot), id]
  rw [hown, hcarried, rowsFrom_again hlen, hothers, hitems, List.map_append, huntouched]

/-- **A second extraction** of the same items changes nothing but the time of the update, and it
succeeds if every statement is executed. -/
theorem replaceSummaryItems_again {written : ℕ}
    (h : replaceStatements tables env order db meetingId items = .ok (written, db'))
    (env' : SqlEnv) :
    (∀ written', (replaceSummaryItems tables env' (.stored _) db' meetingId items).1 = .ok written' →
      (replaceSummaryItems tables env' (.stored _) db' meetingId items).2.items =
        db'.items.map (touch meetingId (env'.now 0))) ∧
      ((∀ k, env'.ok k = true) →
        (replaceSummaryItems tables env' (.stored _) db' meetingId items).1 = .ok items.length) := by
  have hagain := carriedBy_again h env'
  constructor
  · intro written' hok
    rw [replaceSummaryItems] at hok ⊢
    split at hok
    next n db'' hstatements =>
      obtain ⟨-, -, hitems, -⟩ := replaceStatements_eq_ok hstatements
      exact hitems.trans hagain
    next => cases hok
  · intro hexecuted
    obtain ⟨-, hmeetings, -, hmeeting⟩ := replaceStatements_eq_ok h
    obtain ⟨db'', hwrite⟩ : ∃ db'', writeItems tables env' meetingId (env'.now 0)
        (db'.items.filter (isOwned meetingId)) 3 [] (deleteOwned db' meetingId) items = .ok db'' := by
      apply exists_writeItems hexecuted
      · intro hne
        exact hmeetings ▸ hmeeting hne
      · rw [deleteOwned_items, hagain, List.map_map]
        have hid : ActionItem.id ∘ touch meetingId (env'.now 0) = ActionItem.id := by
          funext item
          rw [Function.comp, touch]
          split <;> rfl
        rw [hid]
        exact db'.distinct
    have hstatements : replaceStatements tables env' (.stored _) db' meetingId items =
        .ok (items.length, db'') := by
      rw [replaceStatements]
      simp only [hexecuted, Bool.and_self, if_true, Arrangement.stored, id, hwrite]
    rw [replaceSummaryItems, hstatements]

/-- **The items of a summary** are replaced all or not at all. If they are, the table is as it should be,
and a second extraction of the same items changes nothing but the time of the update. -/
theorem conserved_replaceSummaryItems (tables : CaseTables) (env : SqlEnv)
    (order : Arrangement ActionItem) (db : ActionDatabase) (meetingId : String)
    (items : List NewActionItem) :
    (∀ message, (replaceSummaryItems tables env order db meetingId items).1 = .error message →
      (replaceSummaryItems tables env order db meetingId items).2 = db) ∧
    ∀ written, (replaceSummaryItems tables env order db meetingId items).1 = .ok written →
      let db' := (replaceSummaryItems tables env order db meetingId items).2
      written = items.length ∧ Conserved tables env db meetingId items db' ∧
        ∀ env', (∀ written',
            (replaceSummaryItems tables env' (.stored _) db' meetingId items).1 = .ok written' →
            (replaceSummaryItems tables env' (.stored _) db' meetingId items).2.items =
              db'.items.map (touch meetingId (env'.now 0))) ∧
          ((∀ k, env'.ok k = true) →
            (replaceSummaryItems tables env' (.stored _) db' meetingId items).1 =
              .ok items.length) := by
  rcases h : replaceStatements tables env order db meetingId items with message | ⟨n, db'⟩
  · have heq : replaceSummaryItems tables env order db meetingId items = (.error message, db) := by
      rw [replaceSummaryItems, h]
    rw [heq]
    refine ⟨fun _ _ => rfl, ?_⟩
    rintro _ ⟨⟩
  · have heq : replaceSummaryItems tables env order db meetingId items = (.ok n, db') := by
      rw [replaceSummaryItems, h]
    rw [heq]
    refine ⟨by rintro _ ⟨⟩, ?_⟩
    rintro written ⟨⟩
    exact ⟨(replaceStatements_eq_ok h).1, conserved_of_replaceStatements h,
      replaceSummaryItems_again h⟩

/-- An item that was extracted, and is done. -/
def sent : ActionItem where
  id := "action-1"
  meetingId := "standup"
  text := "Send the budget."
  assignee := none
  dueHint := none
  status := "done"
  source := sourceSummary
  externalRef := none
  sourceStartSecs := none
  sourceEndSecs := none
  sourceQuote := none
  createdAt := "2026-07-15T10:00:00+00:00"
  updatedAt := "2026-07-15T10:00:00+00:00"
  completedAt := some "2026-07-15T11:30:00+00:00"

example : (carriedBy .onlyAscii [sent] []
    [⟨"send  the budget", none, none, none, none, none⟩,
      ⟨"Send the Budget.", none, none, none, none, none⟩]).map (Option.map (·.id)) =
    [some "action-1", none] := by decide

end Stored

end ActionItemsRepository

end MeetilyLocal
