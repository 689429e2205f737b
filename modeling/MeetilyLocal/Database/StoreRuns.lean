import MeetilyLocal.Database.StoreCalls

/-!
# Runs on the store

What holds after any calls on the store, of the application and of agents, in any order and whether or
not they succeed. A meeting that was deleted is gone from every table for good, and no other meeting was
touched (`deleteMeeting_forever`). A recording that a crash has cut short is offered for recovery until
it is completed or deleted (`listInterrupted_run`).
-/

namespace MeetilyLocal

open ActionItemsRepository MeetingPage SummaryProcessesRepository TranscriptsRepository

namespace MeetingStore

variable {s s' : MeetingStore} {ctx : StoreContext} {env : SqlEnv} {c : StoreCallAt}
  {calls : List StoreCallAt} {id other : String}

theorem run_cons : run ctx (c :: calls) s = run ctx calls (perform ctx c s) := rfl

/-- What each call keeps, a run keeps. -/
theorem run_induct {P : StoreCallAt → Prop} {I : MeetingStore → Prop}
    (hstep : ∀ c s, P c → I s → I (perform ctx c s)) (hcalls : ∀ c ∈ calls, P c) (hs : I s) :
    I (run ctx calls s) := by
  induction calls generalizing s with
  | nil => exact hs
  | cons c calls ih =>
    obtain ⟨hc, hcalls⟩ := List.forall_mem_cons.mp hcalls
    exact ih hcalls (hstep c s hc hs)

/-! ## Deleted meetings -/

/-- All that is stored of a meeting. -/
structure MeetingData : Type where
  /-- its row -/
  meeting : Option StoredMeeting
  /-- its transcript -/
  transcripts : List TranscriptRow
  /-- its summary -/
  process : Option SummaryProcess
  /-- its action items -/
  actionItems : List ActionItem
  /-- its notes -/
  notes : List MeetingNote

/-- Nothing is stored. -/
def MeetingData.nothing : MeetingData := ⟨none, [], none, [], []⟩

/-- What is stored of a meeting. -/
def dataOf (s : MeetingStore) (id : String) : MeetingData where
  meeting := s.meetings.find id
  transcripts := s.transcripts.filter fun row => row.meetingId = id
  process := s.processes id
  actionItems := s.actionItems.rows.filter fun item => item.meetingId = id
  notes := s.notes.rows.filter fun note => note.meetingId = id

/-- Nothing is stored of a meeting that there is not. -/
theorem dataOf_of_notMem (h : id ∉ s.meetings.keys) : s.dataOf id = .nothing := by
  have hprocess : s.processes id = none := by
    by_contra hne
    exact h (s.processes_refer id hne)
  rw [dataOf, Table.find_eq_none_iff.mpr h, s.transcripts_refer.filter_eq_nil h, hprocess,
    s.actionItems_refer.filter_eq_nil h, s.notes_refer.filter_eq_nil h]
  rfl

theorem filter_filter_of_ne {α : Type} {owner : α → String} (rows : List α) (hne : other ≠ id) :
    (rows.filter fun row => !decide (owner row = id)).filter (fun row => owner row = other) =
      rows.filter fun row => owner row = other := by
  rw [List.filter_filter]
  refine List.filter_congr fun row _ => ?_
  by_cases h : owner row = other <;> simp [h, hne]

/-- What is stored of the other meetings is left alone by a deletion. -/
theorem dataOf_deleteMeetingRow_of_ne (hne : other ≠ id) :
    (((s.deleteProcess id).deleteTranscripts id).deleteMeetingRow id).dataOf other =
      s.dataOf other := by
  simp only [dataOf, deleteMeetingRow, deleteTranscripts, deleteProcess, Table.deleteWhere]
  congr 1
  · exact Table.find_deleteWhere_of_ne hne
  · rw [filter_filter_of_ne _ hne, filter_filter_of_ne _ hne]
  · simp [Function.update_of_ne hne]
  · exact filter_filter_of_ne _ hne
  · exact filter_filter_of_ne _ hne

/-- A call makes a meeting with this id. -/
def Creates (c : StoreCallAt) (id : String) : Prop :=
  match c.call with
  | .createRecordingMeeting meetingId _ _ => meetingId = id
  | .saveTranscript _ _ _ => "meeting-" ++ c.env.uuid 0 = id
  | _ => False

/-- The calls that make a move. -/
def StatusMove.MadeBy (c : StoreCallAt) : StatusMove → Prop
  | .started id => ∃ title folderPath, c.call = .createRecordingMeeting id title folderPath
  | .imported id => id = "meeting-" ++ c.env.uuid 0 ∧
      ∃ title transcripts folderPath, c.call = .saveTranscript title transcripts folderPath
  | .completed id => ∃ durationSeconds audioPath, c.call = .markCompleted id durationSeconds audioPath
  | .interrupted id => c.call = .markInterrupted id
  | .swept => c.call = .sweep
  | .deleted id => c.call = .deleteMeeting id

theorem madeBy_of_moveOf {move : StatusMove} (h : moveOf c s = some move) : move.MadeBy c := by
  obtain ⟨env, call⟩ := c
  cases call with
  | createRecordingMeeting meetingId title folderPath =>
    obtain ⟨-, hmove⟩ := Option.ite_none_right_eq_some.mp h
    obtain rfl := Option.some.inj hmove
    exact ⟨title, folderPath, rfl⟩
  | saveTranscript title transcripts folderPath =>
    simp only [moveOf] at h
    split at h
    · next meetingId db hsaved =>
      obtain rfl := Option.some.inj h
      exact ⟨(of_saveTranscript hsaved).1, title, transcripts, folderPath, rfl⟩
    · cases h
  | markCompleted meetingId durationSeconds audioPath =>
    obtain ⟨-, hmove⟩ := Option.ite_none_right_eq_some.mp h
    obtain rfl := Option.some.inj hmove
    exact ⟨durationSeconds, audioPath, rfl⟩
  | markInterrupted meetingId =>
    obtain ⟨-, hmove⟩ := Option.ite_none_right_eq_some.mp h
    obtain rfl := Option.some.inj hmove
    rfl
  | sweep =>
    obtain ⟨-, hmove⟩ := Option.ite_none_right_eq_some.mp h
    obtain rfl := Option.some.inj hmove
    rfl
  | deleteMeeting meetingId =>
    simp only [moveOf] at h
    split at h
    · obtain rfl := Option.some.inj h
      rfl
    · cases h
  | _ => cases h

/-- What a move does to the status of one meeting. -/
def StatusMove.on (id : String) (status : Option MeetingStatus) : StatusMove → Option MeetingStatus
  | .started meetingId => if meetingId = id ∧ status = none then some .recording else status
  | .imported meetingId => if meetingId = id ∧ status = none then some .completed else status
  | .completed meetingId => if meetingId = id then status.map fun _ => .completed else status
  | .interrupted meetingId => if meetingId = id then status.map fun _ => .interrupted else status
  | .swept => status.map fun st => if st = .recording then .interrupted else st
  | .deleted meetingId => if meetingId = id then none else status

theorem StatusMove.apply_eq_on (move : StatusMove) (status : String → Option MeetingStatus) (id : String) :
    move.apply status id = move.on id (status id) := by
  cases move with
  | started meetingId | imported meetingId =>
    obtain rfl | hne := eq_or_ne id meetingId
    · by_cases hnone : status id = none <;> simp [apply, on, hnone]
    · by_cases hnone : status meetingId = none <;> simp [apply, on, hnone, hne, hne.symm]
  | completed meetingId | interrupted meetingId | deleted meetingId =>
    obtain rfl | hne := eq_or_ne id meetingId
    · simp [apply, on]
    · simp [apply, on, hne, hne.symm]
  | swept => rfl

/-- What a call does to the status of one meeting. -/
theorem statusOf_perform_at (ctx : StoreContext) (c : StoreCallAt) (s : MeetingStore) (id : String) :
    (perform ctx c s).statusOf id =
      (moveOf c s).elim (s.statusOf id) (StatusMove.on id (s.statusOf id)) := by
  rw [statusOf_perform]
  cases moveOf c s with
  | none => rfl
  | some move => exact move.apply_eq_on s.statusOf id

/-- A meeting that there is not stays away until a call makes one with its id. -/
theorem statusOf_perform_eq_none (hc : ¬Creates c id) (h : s.statusOf id = none) :
    (perform ctx c s).statusOf id = none := by
  rw [statusOf_perform_at, h]
  cases hmove : moveOf c s with
  | none => rfl
  | some move =>
    have hmade := madeBy_of_moveOf hmove
    cases move with
    | started meetingId =>
      obtain ⟨title, folderPath, hcall⟩ := hmade
      have hne : meetingId ≠ id := by simpa [Creates, hcall] using hc
      simp [StatusMove.on, hne]
    | imported meetingId =>
      obtain ⟨rfl, title, transcripts, folderPath, hcall⟩ := hmade
      have hne : "meeting-" ++ c.env.uuid 0 ≠ id := by simpa [Creates, hcall] using hc
      simp [StatusMove.on, hne]
    | completed | interrupted | swept | deleted => simp [StatusMove.on]

theorem statusOf_run_eq_none (hcalls : ∀ c ∈ calls, ¬Creates c id) (h : s.statusOf id = none) :
    (run ctx calls s).statusOf id = none :=
  run_induct (I := fun s => s.statusOf id = none) (fun _ _ => statusOf_perform_eq_none) hcalls h

/-- **A meeting that was deleted is gone for good.** A deletion that says so leaves nothing of it in any
table, whatever the application and agents do from then on, unless they make a meeting with its id, and
it leaves the other meetings as they are. Any other deletion changes nothing at all. -/
theorem deleteMeeting_forever (ctx : StoreContext) (env : SqlEnv) (s : MeetingStore) (id : String)
    (calls : List StoreCallAt) (hcalls : ∀ c ∈ calls, ¬Creates c id) :
    ((deleteMeeting env s id).1 = .ok true ∧
      (run ctx calls (deleteMeeting env s id).2).dataOf id = .nothing ∧
      (∀ other, other ≠ id → (deleteMeeting env s id).2.dataOf other = s.dataOf other) ∧
      (deleteMeeting env s id).2.voiceProfiles = s.voiceProfiles) ∨
    (deleteMeeting env s id).1 ≠ .ok true ∧ (deleteMeeting env s id).2 = s := by
  obtain ⟨hok, -, hdeleted⟩ | hnothing := deleteMeeting_cases env s id
  · refine .inl ⟨hok, ?_, fun other hne => ?_, ?_⟩
    · have hnone : (deleteMeeting env s id).2.statusOf id = none := by
        rw [hdeleted, statusOf_deleteMeetingRow, Function.update_self]
      exact dataOf_of_notMem (statusOf_eq_none_iff.mp (statusOf_run_eq_none hcalls hnone))
    · rw [hdeleted]
      exact dataOf_deleteMeetingRow_of_ne hne
    · rw [hdeleted]
      rfl
  · exact .inr hnothing

/-- Texts of ASCII, and items in the order in which they are stored. -/
def plain : StoreContext := ⟨.onlyAscii, .stored _, fun text => text⟩

/-- A call whose statements succeed. -/
def calmly (call : StoreCall) : StoreCallAt := ⟨calm, call⟩

/-- A meeting that is being recorded, with a note. -/
def noted : MeetingStore :=
  run plain [calmly (.createRecordingMeeting "standup" "Standup" none),
    calmly (.createNote "standup" "Ask for the budget." sourceManual)] empty

theorem deleteMeeting_forever_noted :
    (run plain [calmly (.agentNote "standup" "It was sent.")]
      (deleteMeeting calm noted "standup").2).dataOf "standup" = .nothing := by
  have hcalls : ∀ c ∈ [calmly (.agentNote "standup" "It was sent.")], ¬Creates c "standup" := by
    simp [Creates, calmly]
  obtain ⟨-, hgone, -⟩ | ⟨hno, -⟩ := deleteMeeting_forever plain calm noted "standup" _ hcalls
  · exact hgone
  · exact absurd rfl hno

/-! ## Interrupted recordings -/

/-- A call settles an interrupted recording: it completes the meeting, or deletes it. -/
def Settles (c : StoreCallAt) (id : String) : Prop :=
  match c.call with
  | .markCompleted meetingId _ _ => meetingId = id
  | .deleteMeeting meetingId => meetingId = id
  | _ => False

/-- A call starts a recording of this meeting. -/
def Starts (c : StoreCallAt) (id : String) : Prop :=
  match c.call with
  | .createRecordingMeeting meetingId _ _ => meetingId = id
  | _ => False

/-- An interrupted recording stays so until it is settled. -/
theorem statusOf_perform_interrupted (hc : ¬Settles c id) (h : s.statusOf id = some .interrupted) :
    (perform ctx c s).statusOf id = some .interrupted := by
  rw [statusOf_perform_at, h]
  cases hmove : moveOf c s with
  | none => rfl
  | some move =>
    have hmade := madeBy_of_moveOf hmove
    cases move with
    | completed meetingId =>
      obtain ⟨durationSeconds, audioPath, hcall⟩ := hmade
      have hne : meetingId ≠ id := by simpa [Settles, hcall] using hc
      simp [StatusMove.on, hne]
    | deleted meetingId =>
      have hcall : c.call = .deleteMeeting meetingId := hmade
      have hne : meetingId ≠ id := by simpa [Settles, hcall] using hc
      simp [StatusMove.on, hne]
    | started | imported | interrupted | swept => simp [StatusMove.on]

/-- Only a recording that is started is being recorded. -/
theorem statusOf_perform_ne_recording (hc : ¬Starts c id) (h : s.statusOf id ≠ some .recording) :
    (perform ctx c s).statusOf id ≠ some .recording := by
  rw [statusOf_perform_at]
  cases hmove : moveOf c s with
  | none => exact h
  | some move =>
    have hmade := madeBy_of_moveOf hmove
    cases move with
    | started meetingId =>
      obtain ⟨title, folderPath, hcall⟩ := hmade
      have hne : meetingId ≠ id := by simpa [Starts, hcall] using hc
      simpa [StatusMove.on, hne] using h
    | swept =>
      simp only [Option.elim_some, StatusMove.on, ne_eq, Option.map_eq_some_iff, not_exists, not_and]
      rintro st hst hrecording
      split at hrecording
      · cases hrecording
      next hne => exact hne hrecording
    | imported | completed | interrupted | deleted =>
      simp only [Option.elim_some, StatusMove.on]
      split
      · simp
      · exact h

theorem mem_listInterrupted_iff {order : Arrangement StoredMeeting} {row : InterruptedMeetingRow} :
    row ∈ listInterruptedMeetings order s ↔
      ∃ m ∈ s.meetings.rows, m.status = .interrupted ∧ interruptedRow s m = row := by
  rw [listInterruptedMeetings, List.mem_map]
  simp only [(perm_orderBy newestFirst order _).mem_iff, List.mem_filter, decide_eq_true_eq, and_assoc]

theorem nodup_listInterrupted (order : Arrangement StoredMeeting) (s : MeetingStore) :
    ((listInterruptedMeetings order s).map (·.meetingId)).Nodup := by
  rw [listInterruptedMeetings, List.map_map]
  refine ((perm_orderBy newestFirst order _).map _).nodup_iff.mpr ?_
  exact s.meetings.distinct.sublist (List.filter_sublist.map StoredMeeting.key)

/-- **A recording that was cut short is offered for recovery until it is settled.** When the application
starts, a meeting that is still marked as being recorded is marked as interrupted. From then on, whatever
it and agents do, a meeting is marked as being recorded only if one of these calls started that; and one
that was found so is listed once, with the number of its segments, until it is completed or deleted. -/
theorem listInterrupted_run (order : Arrangement StoredMeeting) (ctx : StoreContext) (env : SqlEnv)
    (s : MeetingStore) (calls : List StoreCallAt) (henv : env.ok 0 = true) :
    let after := run ctx calls (markStaleRecordingMeetingsInterrupted env s).2
    (∀ id, (∀ c ∈ calls, ¬Starts c id) → after.statusOf id ≠ some .recording) ∧
    (∀ id, s.statusOf id = some .recording → (∀ c ∈ calls, ¬Settles c id) →
      ∃ row ∈ listInterruptedMeetings order after,
        row.meetingId = id ∧ row.segmentCount = (after.dataOf id).transcripts.length) ∧
    ((listInterruptedMeetings order after).map (·.meetingId)).Nodup := by
  have hswept : (markStaleRecordingMeetingsInterrupted env s).2.statusOf =
      StatusMove.swept.apply s.statusOf := by rw [statusOf_markStale, if_pos henv]
  refine ⟨fun id hcalls => ?_, fun id hrecording hcalls => ?_, nodup_listInterrupted order _⟩
  · refine run_induct (I := fun s => s.statusOf id ≠ some .recording)
      (fun _ _ => statusOf_perform_ne_recording) hcalls ?_
    rw [hswept]
    simp only [StatusMove.apply, ne_eq, Option.map_eq_some_iff, not_exists, not_and]
    rintro st - hst
    split at hst
    · cases hst
    next hne => exact hne hst
  · have hinterrupted : (run ctx calls (markStaleRecordingMeetingsInterrupted env s).2).statusOf id =
        some .interrupted := by
      refine run_induct (I := fun s => s.statusOf id = some .interrupted)
        (fun _ _ => statusOf_perform_interrupted) hcalls ?_
      rw [hswept]
      simp [StatusMove.apply, hrecording]
    obtain ⟨m, hfind, hstatus⟩ := Option.map_eq_some_iff.mp hinterrupted
    obtain ⟨hmem, hid⟩ := Table.find_eq_some_iff.mp hfind
    refine ⟨_, mem_listInterrupted_iff.mpr ⟨m, hmem, hstatus, rfl⟩, hid, ?_⟩
    have hkey : m.id = id := hid
    rw [interruptedRow, dataOf, hkey, List.countP_eq_length_filter]

theorem listInterrupted_run_noted :
    ∃ row ∈ listInterruptedMeetings (.stored _)
        (run plain [calmly (.updateMeetingTitle "standup" "Daily")]
          (markStaleRecordingMeetingsInterrupted calm noted).2),
      row.meetingId = "standup" := by
  have hcalls : ∀ c ∈ [calmly (.updateMeetingTitle "standup" "Daily")], ¬Settles c "standup" := by
    simp [Settles, calmly]
  obtain ⟨-, hlisted, -⟩ := listInterrupted_run (.stored _) plain calm noted
    [calmly (.updateMeetingTitle "standup" "Daily")] rfl
  obtain ⟨row, hrow, hid, -⟩ := hlisted "standup" (by decide) hcalls
  exact ⟨row, hrow, hid⟩

end MeetingStore

end MeetilyLocal
