import MeetilyLocal.Database.StoreRuns

/-!
# Runs on the action items

Whatever calls are made on the store, in any order, every action item stays tidy (`tidy_run`): its status
is one of the two, the time at which it was done goes with it, and its text is not blank. An item that
the extractor does not own is changed only by calls that are for it or delete its meeting
(`mem_actionItems_run`), so that no summary that is made again undoes what a user or an agent has noted.
-/

namespace MeetilyLocal

open ActionItemsRepository MeetingPage SummaryProcessesRepository TranscriptsRepository

namespace MeetingStore

variable {s s' : MeetingStore} {ctx : StoreContext} {env : SqlEnv} {c : StoreCallAt}
  {calls : List StoreCallAt} {id : String} {item : ActionItem}

/-- What an extraction stores has a text. -/
def ExtractsWorded (c : StoreCallAt) : Prop :=
  match c.call with
  | .replaceSummaryItems _ items => ∀ item ∈ items, Worded item.text
  | _ => True

/-- The rows of `action_items` behind a function on them. -/
theorem rows_onActionItems {α : Type} {f : ActionDatabase → Except String α × ActionDatabase}
    {hf : KeepsActionItems f} :
    (s.onActionItems f hf).2.actionItems.rows = (f s.actionDatabase).2.items := rfl

theorem worded_of_trim {text : List Char} (h : trim text ≠ []) : Worded (String.ofList text) := by
  rwa [Worded, String.toList_ofList]

/-- A row that is written is tidy if what it is written over was. -/
theorem ItemWrite.tidy {meetings : List String} {old : Option ActionItem} {row : ActionItem}
    (h : ItemWrite Worded meetings old row) (hold : ∀ o ∈ old, Tidy o) : Tidy row := by
  cases h with
  | made _ htext => exact ⟨.inl ⟨rfl, rfl⟩, worded_of_trim htext⟩
  | status o hstatus =>
    refine ⟨timed_statusSet ?_, (hold o rfl).worded⟩
    rintro ⟨hopen, hdone⟩
    exact hstatus.elim hopen hdone
  | @patched text assignee dueHint now o htext =>
    refine ⟨(hold o rfl).timed, ?_⟩
    cases text with
    | none => exact (hold o rfl).worded
    | some t => exact worded_ofList_trim (by simpa using htext t rfl)
  | @extracted id meetingId now item _ _ _ hworded =>
    refine ⟨?_, hworded⟩
    cases old with
    | none => exact .inl ⟨rfl, rfl⟩
    | some o => exact (hold o rfl).timed

/-- What a call can do to the items of a store. -/
def ItemsWritten (s s' : MeetingStore) : Prop :=
  ∀ row ∈ s'.actionItems.rows, row ∈ s.actionItems.rows ∨
    ∃ old, (∀ o ∈ old, o ∈ s.actionItems.rows) ∧ ItemWrite Worded s.meetings.keys old row

theorem ItemsWritten.of_subset (h : s'.actionItems.rows ⊆ s.actionItems.rows) : ItemsWritten s s' :=
  fun _ hrow => .inl (h hrow)

theorem ItemsWritten.of_eq (h : s'.actionItems = s.actionItems) : ItemsWritten s s' :=
  .of_subset (by rw [h]; exact List.Subset.refl _)

theorem itemsWritten_onActionItems {α : Type} {f : ActionDatabase → Except String α × ActionDatabase}
    {hf : KeepsActionItems f} (h : Rewrites Worded s.actionDatabase (f s.actionDatabase).2) :
    ItemsWritten s (s.onActionItems f hf).2 := h.rows

theorem actionItems_onTranscripts {α : Type} {f : Database → Except String (α × Database)}
    {hf : KeepsTranscripts f} : (s.onTranscripts f hf).2.actionItems = s.actionItems := by
  rw [onTranscripts]
  split <;> rfl

theorem actionItems_onSummaries {α : Type} {f : SummaryDatabase → Except String (α × SummaryDatabase)}
    {hf : KeepsSummaries f} : (s.onSummaries f hf).2.actionItems = s.actionItems := by
  rw [onSummaries]
  split <;> rfl

/-- The calls that do not write `action_items`, but for the rows of a meeting that is deleted. -/
def LeavesItems (c : StoreCallAt) : Prop :=
  match c.call with
  | .createItem _ _ _ | .setItemStatus _ _ | .updateItem _ _ _ _ | .deleteItem _
  | .replaceSummaryItems _ _ | .agentItem _ _ _ _ | .agentStatus _ _ | .deleteMeeting _ => False
  | _ => True

theorem actionItems_of_leaves (hc : LeavesItems c) : (perform ctx c s).actionItems = s.actionItems := by
  obtain ⟨env, call⟩ := c
  cases call with
  | createItem | setItemStatus | updateItem | deleteItem | replaceSummaryItems | agentItem
  | agentStatus | deleteMeeting => exact hc.elim
  | replaceTranscripts | upsertTranscripts | relinkTranscripts | renameSpeaker | updateSpeakers =>
    exact actionItems_onTranscripts
  | summary => exact actionItems_onSummaries
  | createNote => exact createNote_leaves.2
  | deleteNote =>
    simp only [perform, deleteNote]
    split <;> rfl
  | agentNote =>
    simp only [perform]
    split
    · exact insertAgentNote_leaves.2
    · rfl
  | createRecordingMeeting =>
    simp only [perform, createRecordingMeeting]
    split_ifs <;> rfl
  | saveTranscript =>
    simp only [perform, saveTranscript]
    split <;> rfl
  | updateMeetingTitle =>
    simp only [perform, updateMeetingTitle, updateMeetingName]
    split_ifs <;> rfl
  | updateMeetingName =>
    simp only [perform, updateMeetingName]
    split_ifs <;> rfl
  | markCompleted =>
    simp only [perform, markMeetingCompleted, updateById]
    split_ifs <;> rfl
  | markInterrupted =>
    simp only [perform, markMeetingInterrupted, updateById]
    split_ifs <;> rfl
  | sweep =>
    simp only [perform, markStaleRecordingMeetingsInterrupted]
    split_ifs <;> rfl

/-- The text that the MCP server lets through. -/
theorem of_requireNonempty {value field text : String} (h : Mcp.requireNonempty value field = .ok text) :
    Worded text := by
  rw [Mcp.requireNonempty] at h
  split at h
  · cases h
  next hblank =>
    obtain rfl := Except.ok.inj h
    exact worded_ofList_trim (by simpa using hblank)

/-- The status that the MCP server lets through. -/
theorem of_validateStatus {debug : List Char → List Char} {value status : String}
    (h : Mcp.validateStatus debug value = .ok status) : status = statusOpen ∨ status = statusDone := by
  rw [Mcp.validateStatus] at h
  split at h
  · exact .inl (Except.ok.inj h).symm
  split at h
  · exact .inr (Except.ok.inj h).symm
  · cases h

theorem rewrites_insertItemRow {db : ActionDatabase} {meetingId text now : String}
    {assignee dueHint : Option String} (htext : Worded text) :
    Rewrites Worded db (Mcp.insertItemRow
      (Mcp.agentItem id meetingId text assignee dueHint now) db).2 := by
  rw [Mcp.insertItemRow]
  split
  · next hinsert =>
    exact rewrites_insertItem hinsert (.made (insertItem_eq_ok hinsert).2.2 htext)
  · exact .refl _ _

theorem rewrites_updateItemStatus {db : ActionDatabase} {status now : String}
    (hstatus : status = statusOpen ∨ status = statusDone) :
    Rewrites Worded db (Mcp.updateItemStatus id status now db).2 :=
  rewrites_updateWhere fun old => .status old hstatus

/-- What a call does to the items. -/
theorem itemsWritten_perform (hc : ExtractsWorded c) : ItemsWritten s (perform ctx c s) := by
  by_cases hleaves : LeavesItems c
  · exact .of_eq (actionItems_of_leaves hleaves)
  obtain ⟨env, call⟩ := c
  cases call with
  | createItem meetingId item source => exact itemsWritten_onActionItems (rewrites_create item)
  | setItemStatus => exact itemsWritten_onActionItems rewrites_setStatus
  | updateItem => exact itemsWritten_onActionItems rewrites_update
  | deleteItem => exact itemsWritten_onActionItems rewrites_delete
  | replaceSummaryItems => exact itemsWritten_onActionItems (rewrites_replaceSummaryItems hc)
  | agentItem meetingId text assignee dueHint =>
    simp only [perform]
    split
    · next htext => exact itemsWritten_onActionItems (rewrites_insertItemRow (of_requireNonempty htext))
    · exact .of_eq rfl
  | agentStatus id status =>
    simp only [perform]
    split
    · next hstatus =>
      exact itemsWritten_onActionItems (rewrites_updateItemStatus (of_validateStatus hstatus))
    · exact .of_eq rfl
  | deleteMeeting meetingId =>
    obtain ⟨-, -, hdeleted⟩ | ⟨-, hsame⟩ := deleteMeeting_cases env s meetingId
    · refine .of_subset ?_
      simp only [perform, hdeleted]
      exact List.filter_subset_self _
    · exact .of_eq (by simp only [perform, hsame])
  | _ => exact absurd trivial hleaves

/-- **Action items stay tidy**, whatever is done to the store, if what is extracted has a text. -/
theorem tidy_run (ctx : StoreContext) (s : MeetingStore) (calls : List StoreCallAt)
    (hcalls : ∀ c ∈ calls, ExtractsWorded c) (hs : ∀ item ∈ s.actionItems.rows, Tidy item) :
    ∀ item ∈ (run ctx calls s).actionItems.rows, Tidy item := by
  refine run_induct (I := fun s => ∀ item ∈ s.actionItems.rows, Tidy item) ?_ hcalls hs
  intro c s hc hs row hrow
  obtain hsame | ⟨old, hold, hwrite⟩ := itemsWritten_perform hc row hrow
  · exact hs row hsame
  · exact hwrite.tidy fun o ho => hs o (hold o ho)

theorem tidy_run_noted :
    Tidy (newItem "0" "standup" "Send it.".toList ⟨"Send it.", none, none, none, none, none⟩ sourceAgent
      "2026-01-01T10:00:00+00:00") := by
  have hcalls : ∀ c ∈ [calmly (.agentItem "standup" " Send it. " none none)], ExtractsWorded c := by
    simp [ExtractsWorded, calmly]
  refine tidy_run plain noted [calmly (.agentItem "standup" " Send it. " none none)] hcalls
    (by simp [show noted.actionItems.rows = [] from rfl]) _ ?_
  exact List.mem_singleton.mpr rfl

/-! ## Items that the extractor does not own -/

/-- A call is for an item: it names it, or deletes its meeting. -/
def IsFor (c : StoreCallAt) (item : ActionItem) : Prop :=
  match c.call with
  | .setItemStatus id _ | .updateItem id _ _ _ | .deleteItem id | .agentStatus id _ => id = item.id
  | .deleteMeeting meetingId => meetingId = item.meetingId
  | _ => False

section Frame

variable {db db' : ActionDatabase} {set : ActionItem → ActionItem}

theorem mem_insertItem {row : ActionItem} (h : insertItem db row = .ok db') (hitem : item ∈ db.items) :
    item ∈ db'.items := by
  rw [(insertItem_eq_ok h).2.1]
  exact List.mem_append_left _ hitem

theorem mem_updateById {hset : ∀ item, (set item).id = item.id} (hne : id ≠ item.id)
    (hitem : item ∈ db.items) :
    item ∈ (ActionItemsRepository.updateById env db id set hset).2.items := by
  have hp : decide (item.id = id) = false := by simpa using hne.symm
  have hmem : item ∈ (withTable db ((table db).updateWhere (fun item => item.id = id) set hset)).items :=
    Table.mem_updateWhere (t := table db) hset hitem hp
  rw [ActionItemsRepository.updateById]
  split
  · simp only
    split <;> exact hmem
  · exact hitem

theorem mem_create {meetingId source : String} {new : NewActionItem} (hitem : item ∈ db.items) :
    item ∈ (create env db meetingId new source).2.items := by
  rw [create]
  simp only
  split
  · exact hitem
  split
  · split
    · next hinsert =>
      have hmem := mem_insertItem hinsert hitem
      split <;> exact hmem
    · exact hitem
  · exact hitem

theorem mem_setStatus {status : String} (hne : id ≠ item.id) (hitem : item ∈ db.items) :
    item ∈ (setStatus env db id status).2.items := by
  rw [setStatus]
  split
  · exact hitem
  · exact mem_updateById hne hitem

theorem mem_update {text assignee dueHint : Option String} (hne : id ≠ item.id)
    (hitem : item ∈ db.items) : item ∈ (update env db id text assignee dueHint).2.items := by
  rw [update]
  split
  · exact hitem
  split
  · exact hitem
  · exact mem_updateById hne hitem

theorem mem_delete (hne : id ≠ item.id) (hitem : item ∈ db.items) :
    item ∈ (ActionItemsRepository.delete env db id).2.items := by
  rw [ActionItemsRepository.delete]
  split
  · exact Table.mem_deleteWhere (t := table db) hitem (by simpa using hne.symm)
  · exact hitem

/-- An extraction leaves what it does not own. -/
theorem mem_replaceSummaryItems {tables : CaseTables} {order : Arrangement ActionItem}
    {meetingId : String} {items : List NewActionItem} (hsource : item.source ≠ sourceSummary)
    (hitem : item ∈ db.items) :
    item ∈ (replaceSummaryItems tables env order db meetingId items).2.items := by
  rw [replaceSummaryItems]
  split
  · next hwrite =>
    rw [(replaceStatements_eq_ok hwrite).2.2.1]
    refine List.mem_append_left _ (List.mem_filter.mpr ⟨hitem, ?_⟩)
    simp [isOwned, hsource]
  · exact hitem

end Frame

/-- A call leaves an item that it is not for, and that the extractor does not own. -/
theorem mem_actionItems_perform (hsource : item.source ≠ sourceSummary) (hc : ¬IsFor c item)
    (hitem : item ∈ s.actionItems.rows) : item ∈ (perform ctx c s).actionItems.rows := by
  by_cases hleaves : LeavesItems c
  · rwa [actionItems_of_leaves hleaves]
  have hitems : item ∈ s.actionDatabase.items := hitem
  obtain ⟨env, call⟩ := c
  cases call with
  | createItem => exact mem_create hitems
  | setItemStatus => exact mem_setStatus hc hitems
  | updateItem => exact mem_update hc hitems
  | deleteItem => exact mem_delete hc hitems
  | replaceSummaryItems => exact mem_replaceSummaryItems hsource hitems
  | agentItem meetingId text assignee dueHint =>
    simp only [perform]
    split
    · next text _ =>
      rw [insertAgentItem, rows_onActionItems, Mcp.insertItemRow]
      split
      · next hinsert => exact mem_insertItem hinsert hitem
      · exact hitem
    · exact hitem
  | agentStatus id status =>
    simp only [perform]
    split
    · next status _ =>
      have hne : id ≠ item.id := hc
      exact Table.mem_updateWhere (p := fun item => decide (item.id = id))
        (fun row => (rfl : (statusSet status (env.now 0) row).id = row.id)) hitem
        (decide_eq_false hne.symm)
    · exact hitem
  | deleteMeeting meetingId =>
    obtain ⟨-, -, hdeleted⟩ | ⟨-, hsame⟩ := deleteMeeting_cases env s meetingId
    · simp only [perform, hdeleted]
      exact Table.mem_deleteWhere (t := s.actionItems) hitem (by simpa using Ne.symm hc)
    · simpa only [perform, hsame] using hitem
  | _ => exact absurd trivial hleaves

/-- **What a user or an agent has noted stays as it is** until a call is for it: no extraction, and
nothing else that is done to the store, changes or removes it. -/
theorem mem_actionItems_run (ctx : StoreContext) (s : MeetingStore) (calls : List StoreCallAt)
    (item : ActionItem) (hitem : item ∈ s.actionItems.rows) (hsource : item.source ≠ sourceSummary)
    (hcalls : ∀ c ∈ calls, ¬IsFor c item) : item ∈ (run ctx calls s).actionItems.rows :=
  run_induct (I := fun s => item ∈ s.actionItems.rows)
    (fun _ _ hc hitem => mem_actionItems_perform hsource hc hitem) hcalls hitem

/-- An item that a user has made. -/
def ask : ActionItem :=
  newItem "action-0" "standup" "Ask for it.".toList ⟨"Ask for it.", none, none, none, none, none⟩
    sourceManual "2026-01-01T10:00:00+00:00"

/-- A meeting with that item. -/
def asked : MeetingStore :=
  perform plain (calmly (.createItem "standup" ⟨"Ask for it.", none, none, none, none, none⟩
    sourceManual)) noted

theorem mem_actionItems_run_asked :
    ask ∈ (run plain [calmly (.replaceSummaryItems "standup" [])] asked).actionItems.rows := by
  have hcalls : ∀ c ∈ [calmly (.replaceSummaryItems "standup" [])], ¬IsFor c ask := by
    simp [IsFor, calmly]
  exact mem_actionItems_run plain asked [calmly (.replaceSummaryItems "standup" [])] ask
    (List.mem_singleton.mpr rfl) (by decide) hcalls

end MeetingStore

end MeetilyLocal
