import MeetilyLocal.Database.MeetingStore

/-!
# References are kept

Every function of a repository that writes transcripts, action items or summaries leaves the meetings
alone, and its rows refer to one of them (`KeepsTranscripts`, `KeepsActionItems`, `KeepsSummaries`). What
the functions on action items can do to a row is said once (`ItemWrite`, `Rewrites`).
-/

namespace MeetilyLocal

open ActionItemsRepository MeetingPage SummaryProcessesRepository TranscriptsRepository

namespace MeetingStore

section Transcripts

variable {env : SqlEnv} {db db' : Database} {meetingId : String} {k : ℕ}

/-- Every row refers to a meeting. -/
abbrev RowsRefer (db : Database) : Prop := Refers TranscriptRow.meetingId db.transcripts db.meetings

/-- The meetings stay, and so do the references to them. -/
def KeepsRows (db db' : Database) : Prop := db'.meetings = db.meetings ∧ (RowsRefer db → RowsRefer db')

theorem KeepsRows.trans {db₁ : Database} (h : KeepsRows db db₁) (h' : KeepsRows db₁ db') :
    KeepsRows db db' :=
  ⟨h'.1.trans h.1, fun href => h'.2 (h.2 href)⟩

theorem keepsRows_map {f : TranscriptRow → TranscriptRow} (hf : ∀ row, (f row).meetingId = row.meetingId) :
    KeepsRows db { db with transcripts := db.transcripts.map f } :=
  ⟨rfl, fun href => href.map hf⟩

theorem keepsRows_insertRow {row : TranscriptRow} (h : insertRow db row = .ok db') :
    KeepsRows db db' := by
  have hmeeting : row.meetingId ∈ db.meetings := by
    rw [insertRow] at h
    split_ifs at h with _ _ hmeeting
    simpa using hmeeting
  obtain rfl := of_insertRow h
  exact ⟨rfl, fun href => href.append (List.forall_mem_singleton.mpr hmeeting)⟩

theorem keepsRows_upsertRow {row : TranscriptRow} (h : upsertRow db row = .ok db') :
    KeepsRows db db' := by
  rw [upsertRow] at h
  split at h
  · obtain rfl := Except.ok.inj h
    refine keepsRows_map fun other => ?_
    split
    · next hconflict =>
      rw [Bool.and_eq_true, Bool.and_eq_true, beq_iff_eq] at hconflict
      exact hconflict.1.2.symm
    · rfl
  · exact keepsRows_insertRow h

theorem keepsRows_upsertAll {items : List (String × TranscriptSegment)}
    (h : upsertAll env k db items = .ok db') : KeepsRows db db' := by
  induction items generalizing k db with
  | nil =>
    obtain rfl := Except.ok.inj h
    exact ⟨rfl, id⟩
  | cons item items ih =>
    rw [upsertAll] at h
    simp only at h
    split at h
    · split at h
      · next hrow => exact (keepsRows_upsertRow hrow).trans (ih h)
      · cases h
    · cases h

theorem keepsRows_insertAll {row : ℕ → TranscriptSegment → TranscriptRow}
    {segments : List TranscriptSegment} (h : insertAll env row k db segments = .ok db') :
    KeepsRows db db' := by
  induction segments generalizing k db with
  | nil =>
    obtain rfl := Except.ok.inj h
    exact ⟨rfl, id⟩
  | cons segment segments ih =>
    rw [insertAll] at h
    split at h
    · split at h
      · next hrow => exact (keepsRows_insertRow hrow).trans (ih h)
      · cases h
    · cases h

/-- The statements of `update_speakers_by_sequence`. -/
theorem keepsRows_updateSpeakers {updates : List SpeakerUpdate}
    (h : TranscriptsRepository.updateSpeakers env meetingId k db updates = .ok db') :
    KeepsRows db db' := by
  induction updates generalizing k db with
  | nil =>
    obtain rfl := Except.ok.inj h
    exact ⟨rfl, id⟩
  | cons update updates ih =>
    rw [TranscriptsRepository.updateSpeakers] at h
    split at h
    · exact (keepsRows_map fun row => meetingId_updateSpeaker meetingId update row).trans (ih h)
    · cases h

/-- It is enough that the references are kept where the meetings stay. -/
theorem KeepsTranscripts.of_keepsRows {α : Type} {f : Database → Except String (α × Database)}
    (h : ∀ db a db', f db = .ok (a, db') → KeepsRows db db') : KeepsTranscripts f :=
  fun db a db' hok href => (h db a db' hok).1 ▸ (h db a db' hok).2 href

theorem keepsTranscripts_upsert (env : SqlEnv) (items : List (String × TranscriptSegment)) :
    KeepsTranscripts fun db => upsertTranscriptSegments env db items := by
  refine .of_keepsRows fun db n db' h => ?_
  simp only [upsertTranscriptSegments] at h
  split at h
  · obtain ⟨-, rfl⟩ := Prod.mk.inj (Except.ok.inj h)
    exact ⟨rfl, id⟩
  · split at h
    · next hall =>
      split at h
      · obtain ⟨-, rfl⟩ := Prod.mk.inj (Except.ok.inj h)
        exact keepsRows_upsertAll hall
      · cases h
    · cases h

/-- A function that answers nothing else than the tables. -/
def answering (f : Database → Except String Database) (db : Database) :
    Except String (Unit × Database) :=
  (f db).map ((), ·)

theorem answering_eq_ok {f : Database → Except String Database} {u : Unit}
    (h : answering f db = .ok (u, db')) : f db = .ok db' := by
  rw [answering] at h
  cases hf : f db with
  | error message => simp [hf, Except.map] at h
  | ok db₁ => simpa [hf, Except.map] using h

theorem keepsTranscripts_replace (env : SqlEnv) (meetingId : String)
    (segments : List TranscriptSegment) :
    KeepsTranscripts (answering fun db => replaceTranscriptsForMeeting env db meetingId segments) := by
  refine .of_keepsRows fun db u db' h => ?_
  have h := answering_eq_ok h
  simp only [replaceTranscriptsForMeeting] at h
  split at h
  · cases h
  · split at h
    · next hinsert =>
      split at h
      · obtain rfl := Except.ok.inj h
        have hdelete : KeepsRows db
            { db with transcripts := db.transcripts.filter fun row => row.meetingId != meetingId } :=
          ⟨rfl, fun href => href.filter _⟩
        exact hdelete.trans (keepsRows_insertAll hinsert)
      · cases h
    · cases h

theorem keepsTranscripts_updateSpeakers (env : SqlEnv) (meetingId : String)
    (updates : List SpeakerUpdate) :
    KeepsTranscripts (answering fun db => updateSpeakersBySequence env db meetingId updates) := by
  refine .of_keepsRows fun db u db' h => ?_
  have h := answering_eq_ok h
  simp only [updateSpeakersBySequence] at h
  split at h
  · obtain rfl := Except.ok.inj h
    exact ⟨rfl, id⟩
  · split at h
    · next hall =>
      split at h
      · obtain rfl := Except.ok.inj h
        exact keepsRows_updateSpeakers hall
      · cases h
    · cases h

/-- One `UPDATE` in a statement of its own. -/
def statement (env : SqlEnv) (f : Database → Database) (db : Database) : Except String Database :=
  if env.ok 0 then .ok (f db) else .error sqlError

theorem keepsTranscripts_statement (env : SqlEnv) {f : Database → Database}
    (hf : ∀ db, KeepsRows db (f db)) : KeepsTranscripts (answering (statement env f)) := by
  refine .of_keepsRows fun db u db' h => ?_
  have h := answering_eq_ok h
  rw [statement] at h
  split at h
  · obtain rfl := Except.ok.inj h
    exact hf db
  · cases h

theorem keepsRows_relink (fromProfileId toProfileId toName : String) :
    KeepsRows db (relinkTranscripts db fromProfileId toProfileId toName) :=
  keepsRows_map fun row => by
    split
    · rfl
    · rfl

theorem keepsRows_renameSpeaker (meetingId oldLabel newLabel : String) (profileId : Option String) :
    KeepsRows db (renameSpeakerInMeeting db meetingId oldLabel newLabel profileId) :=
  keepsRows_map fun row => by
    split
    · rfl
    · rfl

end Transcripts

section ActionItems

variable {env : SqlEnv} {db db' : ActionDatabase} {meetingId id status now text source : String}
  {old : Option ActionItem} {row : ActionItem} {fit : String → Prop}

/-- How a call writes a row of `action_items`, in the place of an old one if there is one; the texts that
are extracted are fit. -/
inductive ItemWrite (fit : String → Prop) (meetings : List String) :
    Option ActionItem → ActionItem → Prop
  /-- it is new, and starts `open` -/
  | made {id meetingId source now : String} {text : List Char} {item : NewActionItem} :
      meetingId ∈ meetings → trim text ≠ [] →
      ItemWrite fit meetings none (newItem id meetingId text item source now)
  /-- its status is set -/
  | status {status now : String} (old : ActionItem) : (status = statusOpen ∨ status = statusDone) →
      ItemWrite fit meetings (some old) (statusSet status now old)
  /-- its fields are patched -/
  | patched {text assignee dueHint : Option String} {now : String} (old : ActionItem) :
      (∀ t ∈ text, trim t.toList ≠ []) →
      ItemWrite fit meetings (some old) (patched text assignee dueHint now old)
  /-- it was extracted, and takes over what there was of it -/
  | extracted {id meetingId now : String} {item : NewActionItem} (old : Option ActionItem) :
      meetingId ∈ meetings → (∀ o ∈ old, isOwned meetingId o = true) → fit item.text →
      ItemWrite fit meetings old (itemRow id meetingId now old item)

/-- What a call can do to the table: each row is as it was, or is written. -/
structure Rewrites (fit : String → Prop) (db db' : ActionDatabase) : Prop where
  /-- the meetings stay -/
  meetings : db'.meetings = db.meetings
  /-- the rows -/
  rows : ∀ row ∈ db'.items, row ∈ db.items ∨
    ∃ old, (∀ o ∈ old, o ∈ db.items) ∧ ItemWrite fit db.meetings old row

theorem Rewrites.refl (fit : String → Prop) (db : ActionDatabase) : Rewrites fit db db := ⟨rfl, fun _ h => .inl h⟩

theorem rewrites_insertItem (h : insertItem db row = .ok db') (hrow : ItemWrite fit db.meetings none row) :
    Rewrites fit db db' := by
  obtain ⟨hmeetings, hitems, -⟩ := insertItem_eq_ok h
  refine ⟨hmeetings, fun other hother => ?_⟩
  rw [hitems, List.mem_append, List.mem_singleton] at hother
  obtain hold | rfl := hother
  · exact .inl hold
  · exact .inr ⟨none, by simp, hrow⟩

theorem rewrites_updateWhere {p : ActionItem → Bool} {set : ActionItem → ActionItem}
    {hset : ∀ item, (set item).id = item.id} (h : ∀ item, ItemWrite fit db.meetings (some item) (set item)) :
    Rewrites fit db (withTable db ((table db).updateWhere p set hset)) := by
  refine ⟨rfl, fun other hother => ?_⟩
  obtain ⟨item, hitem, rfl⟩ := List.mem_map.mp hother
  split
  · refine .inr ⟨some item, ?_, h item⟩
    rintro o ⟨⟩
    exact hitem
  · exact .inl hitem

theorem rewrites_updateById {set : ActionItem → ActionItem} {hset : ∀ item, (set item).id = item.id}
    (h : ∀ item, ItemWrite fit db.meetings (some item) (set item)) :
    Rewrites fit db (ActionItemsRepository.updateById env db id set hset).2 := by
  rw [ActionItemsRepository.updateById]
  split
  · simp only
    split <;> exact rewrites_updateWhere h
  · exact .refl fit db

theorem rewrites_create (item : NewActionItem) :
    Rewrites fit db (create env db meetingId item source).2 := by
  rw [create]
  simp only
  split
  · exact .refl fit db
  next hblank =>
    split
    · split
      · next db₁ hinsert =>
        have hwrites : Rewrites fit db db₁ := by
          refine rewrites_insertItem hinsert (.made (insertItem_eq_ok hinsert).2.2 ?_)
          rw [trim_trim]
          simpa using hblank
        split <;> exact hwrites
      · exact .refl fit db
    · exact .refl fit db

theorem rewrites_setStatus : Rewrites fit db (setStatus env db id status).2 := by
  rw [setStatus]
  split
  · exact .refl fit db
  next hstatus =>
    refine rewrites_updateById fun item => .status item ?_
    by_contra hne
    exact hstatus (not_or.mp hne)

theorem rewrites_update {text assignee dueHint : Option String} :
    Rewrites fit db (update env db id text assignee dueHint).2 := by
  rw [update]
  split
  · exact .refl fit db
  next hblank =>
    split
    · exact .refl fit db
    · refine rewrites_updateById fun item => .patched item fun t ht => ?_
      obtain rfl := Option.mem_def.mp ht
      simpa using hblank

theorem rewrites_delete : Rewrites fit db (ActionItemsRepository.delete env db id).2 := by
  rw [ActionItemsRepository.delete]
  split
  · exact ⟨rfl, fun row hrow => .inl (List.mem_of_mem_filter hrow)⟩
  · exact .refl fit db

theorem mem_rowsFrom {k : ℕ} {carried : List (Option ActionItem)} {items : List NewActionItem}
    (h : row ∈ rowsFrom env meetingId now k carried items) :
    ∃ id, ∃ old ∈ carried, ∃ item ∈ items, row = itemRow id meetingId now old item := by
  induction items generalizing k carried with
  | nil => cases carried <;> cases h
  | cons item items ih =>
    cases carried with
    | nil => cases h
    | cons old carried =>
      obtain rfl | h := List.mem_cons.mp h
      · exact ⟨_, old, List.mem_cons_self, item, List.mem_cons_self, rfl⟩
      · obtain ⟨id, old, hold, item, hitem, rfl⟩ := ih h
        exact ⟨id, old, List.mem_cons_of_mem _ hold, item, List.mem_cons_of_mem _ hitem, rfl⟩

theorem rewrites_replaceSummaryItems {tables : CaseTables} {order : Arrangement ActionItem}
    {items : List NewActionItem} (hfit : ∀ item ∈ items, fit item.text) :
    Rewrites fit db (replaceSummaryItems tables env order db meetingId items).2 := by
  rw [replaceSummaryItems]
  split
  · next written db₁ hwrite =>
    obtain ⟨-, hmeetings, hitems, hmeeting⟩ := replaceStatements_eq_ok hwrite
    refine ⟨hmeetings, fun row hrow => ?_⟩
    obtain hother | hrow := List.mem_append.mp (hitems ▸ hrow)
    · exact .inl (List.mem_of_mem_filter hother)
    obtain ⟨id, old, hold, item, hitem, rfl⟩ := mem_rowsFrom hrow
    have howned : ∀ o ∈ old, o ∈ db.items.filter (isOwned meetingId) := by
      intro o ho
      obtain ⟨rest, hperm⟩ := greedy_perm (fun p : ActionItem => normalizeTextKey tables p.text)
        (order.arrange (db.items.filter (isOwned meetingId)))
        (items.map fun item => normalizeTextKey tables item.text)
      refine (hperm.trans (order.perm _)).subset (List.mem_append_left _ ?_)
      rw [← carriedBy_eq, List.reduceOption_mem_iff, ← Option.mem_def.mp ho]
      exact hold
    refine .inr ⟨old, fun o ho => List.mem_of_mem_filter (howned o ho), ?_⟩
    refine .extracted old (hmeeting (List.ne_nil_of_mem hitem)) (fun o ho => ?_) (hfit item hitem)
    exact (List.mem_filter.mp (howned o ho)).2
  · exact .refl fit db

/-- The meeting that a row is of stays, and a new row is of one that there is. -/
theorem ItemWrite.refers {meetings : List String} (h : ItemWrite fit meetings old row)
    (hold : ∀ o ∈ old, o.meetingId ∈ meetings) : row.meetingId ∈ meetings := by
  cases h with
  | made hmeeting _ => exact hmeeting
  | status o _ => exact hold o rfl
  | patched o _ => exact hold o rfl
  | extracted _ hmeeting _ _ => exact hmeeting

theorem keepsActionItems_of_rewrites {α : Type} {f : ActionDatabase → Except String α × ActionDatabase}
    (h : ∀ db, Rewrites (fun _ => True) db (f db).2) : KeepsActionItems f := by
  intro db href row hrow
  obtain hsame | ⟨old, hold, hwrite⟩ := (h db).rows row hrow
  · exact href row hsame
  · exact hwrite.refers fun o ho => href o (hold o ho)

end ActionItems

section Summaries

variable {db db' : SummaryDatabase} {meetingId : String}

/-- Summaries are of meetings. -/
def OfMeetings (db : SummaryDatabase) : Prop := ∀ id, db.processes id ≠ none → db.meetings id ≠ none

theorem processes_updateProcess_ne_none {set : SummaryProcess → SummaryProcess} {id : String}
    (h : (updateProcess db meetingId set).processes id ≠ none) : db.processes id ≠ none := by
  by_cases hid : id = meetingId
  · subst hid
    simpa [updateProcess] using h
  · simpa [updateProcess, hid] using h

theorem ofMeetings_upsertProcess {row : SummaryProcess} {set : SummaryProcess → SummaryProcess}
    (h : upsertProcess db meetingId row set = .ok db') (hdb : OfMeetings db) :
    ∀ id, db'.processes id ≠ none → db.meetings id ≠ none := by
  intro id hid
  rw [upsertProcess] at h
  split at h
  · obtain rfl := Except.ok.inj h
    exact hdb id (processes_updateProcess_ne_none hid)
  · split at h
    · cases h
    next hmeeting =>
      obtain rfl := Except.ok.inj h
      by_cases hne : id = meetingId
      · subst hne
        simpa using hmeeting
      · exact hdb id (by simpa [Function.update_of_ne hne] using hid)

theorem processes_restoreBackup_ne_none {env : SqlEnv} {status error id : String}
    (h : restoreBackup env db meetingId status error = .ok db') (hid : db'.processes id ≠ none) :
    db.processes id ≠ none := by
  rw [restoreBackup] at h
  split at h
  · obtain rfl := Except.ok.inj h
    exact processes_updateProcess_ne_none hid
  · cases h

/-- Calls that write the summary of a meeting do so for one that there is. -/
theorem keepsSummaries_perform (c : SummaryCallAt) : KeepsSummaries c.perform := by
  intro db reported db' h hdb id hid
  by_cases hne : id = c.meetingId
  swap
  · rw [processes_perform_of_ne h hne] at hid
    exact hdb id hid
  subst hne
  obtain ⟨env, meetingId, call⟩ := c
  cases call with
  | createOrReset =>
    obtain ⟨saved, hsaved, rfl, -⟩ := of_map_eq_ok h
    rw [createOrResetProcess] at hsaved
    split at hsaved
    · exact ofMeetings_upsertProcess hsaved hdb meetingId hid
    · cases hsaved
  | completed result chunkCount processingTime =>
    obtain ⟨saved, hsaved, rfl, -⟩ := of_map_eq_ok h
    obtain _ | result := result
    · cases hsaved
    · rw [updateProcessCompleted] at hsaved
      split at hsaved
      · obtain rfl := Except.ok.inj hsaved
        exact hdb meetingId (processes_updateProcess_ne_none hid)
      · cases hsaved
  | failed error =>
    obtain ⟨saved, hsaved, rfl, -⟩ := of_map_eq_ok h
    exact hdb meetingId (processes_restoreBackup_ne_none hsaved hid)
  | cancelled =>
    obtain ⟨saved, hsaved, rfl, -⟩ := of_map_eq_ok h
    exact hdb meetingId (processes_restoreBackup_ne_none hsaved hid)
  | userSave summary =>
    obtain ⟨-, rfl⟩ | ⟨result, -, -, hmeeting, -⟩ := of_updateMeetingSummary h
    · exact hdb meetingId hid
    · exact Option.ne_none_iff_isSome.mpr hmeeting
  | agentSave existingStatus markdown =>
    obtain ⟨write, hwrite, rfl, -⟩ := of_map_eq_ok h
    rw [updateSummary] at hwrite
    split at hwrite
    · obtain ⟨saved, hsaved, rfl, -⟩ := of_map_eq_ok hwrite
      exact ofMeetings_upsertProcess hsaved hdb meetingId hid
    · cases hwrite

end Summaries

end MeetingStore

end MeetilyLocal
