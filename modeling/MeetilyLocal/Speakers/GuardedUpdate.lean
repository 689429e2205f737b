import MeetilyLocal.Speakers.HistoryAgreement

/-!
# The guarded update of speakers

`update_speakers_by_sequence` (`database/repositories/transcript.rs`) writes the assignments of a
refinement in one transaction. Each statement is guarded by the label that the row is expected to
have and by its missing voice profile, so that a row which was named in the meantime is left alone.

The statements run in order, so that of several assignments for one sequence number a later one can
make what an earlier one expects; then a second run goes on from there
(`not_guardedUpdate_chained`). A refinement has one assignment for each segment, and then a second
run changes nothing (`guardedUpdate_of_noWayBack`, `noWayBack_of_nodup`).
-/

namespace MeetilyLocal

open TranscriptsRepository SpeakerSession

namespace SpeakerUpdate

variable {meetingId : String} {update : SpeakerUpdate} {updates : List SpeakerUpdate}
  {row : TranscriptRow} {env : SqlEnv} {db db' : Database}

/-- The statement of an assignment finds a row. -/
def Finds (meetingId : String) (update : SpeakerUpdate) (row : TranscriptRow) : Prop :=
  row.meetingId = meetingId ∧ row.sequenceId = some update.sequenceId.toInt64 ∧
    row.speaker = some update.expectedSpeaker ∧ row.voiceProfileId = none

theorem updateSpeaker_of_finds (h : update.Finds meetingId row) :
    updateSpeaker meetingId update row =
      { row with speaker := some update.newSpeaker, voiceProfileId := update.newProfileId } := by
  rw [updateSpeaker]
  exact if_pos h

theorem updateSpeaker_of_not_finds (h : ¬update.Finds meetingId row) :
    updateSpeaker meetingId update row = row := by
  rw [updateSpeaker]
  exact if_neg h

/-- A statement executed twice. -/
theorem updateSpeaker_again (update : SpeakerUpdate) (row : TranscriptRow) :
    updateSpeaker meetingId update (updateSpeaker meetingId update row) =
      updateSpeaker meetingId update row := by
  by_cases h : update.Finds meetingId row
  · rw [updateSpeaker_of_finds h, updateSpeaker]
    split <;> rfl
  · rw [updateSpeaker_of_not_finds h, updateSpeaker_of_not_finds h]

/-! ## One row -/

/-- Only the speaker and the profile change. -/
theorem rowAfter_eq (updates : List SpeakerUpdate) (row : TranscriptRow) :
    rowAfter meetingId updates row =
      { row with
        speaker := (rowAfter meetingId updates row).speaker
        voiceProfileId := (rowAfter meetingId updates row).voiceProfileId } := by
  induction updates generalizing row with
  | nil => rfl
  | cons update updates ih =>
    rw [rowAfter, List.foldl_cons, ← rowAfter, ih]
    by_cases h : update.Finds meetingId row
    · rw [updateSpeaker_of_finds h]
    · rw [updateSpeaker_of_not_finds h]

/-- A row that changed was found by a statement as it was. -/
theorem finds_of_rowAfter_ne (h : rowAfter meetingId updates row ≠ row) :
    ∃ update ∈ updates, update.Finds meetingId row := by
  induction updates with
  | nil => exact absurd rfl h
  | cons update updates ih =>
    by_cases hfinds : update.Finds meetingId row
    · exact ⟨update, List.mem_cons_self, hfinds⟩
    · rw [rowAfter, List.foldl_cons, updateSpeaker_of_not_finds hfinds, ← rowAfter] at h
      obtain ⟨other, hother, hfinds⟩ := ih h
      exact ⟨other, List.mem_cons_of_mem _ hother, hfinds⟩

/-- A row has what the last statement that found it wrote. -/
theorem rowAfter_cases (updates : List SpeakerUpdate) (row : TranscriptRow) :
    rowAfter meetingId updates row = row ∨
      ∃ update ∈ updates, row.sequenceId = some update.sequenceId.toInt64 ∧
        (rowAfter meetingId updates row).speaker = some update.newSpeaker ∧
        (rowAfter meetingId updates row).voiceProfileId = update.newProfileId := by
  induction updates generalizing row with
  | nil => exact .inl rfl
  | cons update updates ih =>
    rw [rowAfter, List.foldl_cons, ← rowAfter]
    by_cases hfinds : update.Finds meetingId row
    · rw [updateSpeaker_of_finds hfinds]
      rcases ih { row with speaker := some update.newSpeaker, voiceProfileId := update.newProfileId }
        with heq | ⟨other, hother, hlast⟩
      · rw [heq]
        exact .inr ⟨update, List.mem_cons_self, hfinds.2.1, rfl, rfl⟩
      · exact .inr ⟨other, List.mem_cons_of_mem _ hother, hlast⟩
    · rw [updateSpeaker_of_not_finds hfinds]
      rcases ih row with heq | ⟨other, hother, hlast⟩
      · exact .inl heq
      · exact .inr ⟨other, List.mem_cons_of_mem _ hother, hlast⟩

theorem rowAfter_of_fixed (h : ∀ update ∈ updates, updateSpeaker meetingId update row = row) :
    rowAfter meetingId updates row = row := by
  induction updates with
  | nil => rfl
  | cons update updates ih =>
    rw [rowAfter, List.foldl_cons, h update List.mem_cons_self, ← rowAfter]
    exact ih fun other hother => h other (List.mem_cons_of_mem _ hother)

/-- No assignment makes, without a profile, the label that an earlier one for the same sequence
number expects. -/
def NoWayBack (updates : List SpeakerUpdate) : Prop :=
  updates.Pairwise fun earlier later => earlier.sequenceId = later.sequenceId →
    later.newSpeaker = earlier.expectedSpeaker → later.newProfileId ≠ none

/-- One assignment for each sequence number. -/
theorem noWayBack_of_nodup (h : (updates.map SpeakerUpdate.sequenceId).Nodup) :
    NoWayBack updates :=
  (List.pairwise_map.mp h).imp fun hne heq => absurd heq hne

/-- Then no statement changes a row once all of them were executed. -/
theorem updateSpeaker_rowAfter (h : NoWayBack updates) (row : TranscriptRow) :
    ∀ update ∈ updates, updateSpeaker meetingId update (rowAfter meetingId updates row) =
      rowAfter meetingId updates row := by
  induction updates generalizing row with
  | nil => simp
  | cons first updates ih =>
    obtain ⟨hfirst, hrest⟩ := List.pairwise_cons.mp h
    intro update hupdate
    rw [rowAfter, List.foldl_cons, ← rowAfter]
    rcases List.mem_cons.mp hupdate with rfl | hupdate
    · rcases rowAfter_cases updates (updateSpeaker meetingId update row)
        with heq | ⟨other, hother, hnumber, hlabel, hwritten⟩
      · rw [heq, updateSpeaker_again]
      · -- what was written last is not what it expects
        refine updateSpeaker_of_not_finds ?_
        rintro ⟨-, hsequence, hspeaker, hprofile⟩
        rw [(rowAfter_keys updates _).2, hnumber] at hsequence
        rw [hlabel] at hspeaker
        rw [hwritten] at hprofile
        exact hfirst other hother (Int64.ofUInt64.inj (Option.some.inj hsequence)).symm
          (Option.some.inj hspeaker) hprofile
    · exact ih hrest _ update hupdate

/-- So all of them once more change nothing. -/
theorem rowAfter_again (h : NoWayBack updates) (row : TranscriptRow) :
    rowAfter meetingId updates (rowAfter meetingId updates row) = rowAfter meetingId updates row :=
  rowAfter_of_fixed (updateSpeaker_rowAfter h row)

/-! ## The table -/

/-- The database with all assignments applied. -/
def applied (meetingId : String) (updates : List SpeakerUpdate) (db : Database) : Database :=
  { db with transcripts := db.transcripts.map (rowAfter meetingId updates) }

/-- The database after the call: an error rolls it back. -/
def databaseAfter (env : SqlEnv) (db : Database) (meetingId : String)
    (updates : List SpeakerUpdate) : Database :=
  (updateSpeakersBySequence env db meetingId updates).toOption.getD db

theorem applied_of_updateSpeakers {k : ℕ} (h : updateSpeakers env meetingId k db updates = .ok db') :
    db' = applied meetingId updates db := by
  induction updates generalizing k db with
  | nil =>
    rw [← Except.ok.inj h, applied]
    exact congrArg (fun rows => { db with transcripts := rows }) (List.map_id _).symm
  | cons update updates ih =>
    rw [updateSpeakers] at h
    split at h
    · rw [ih h, applied, applied, List.map_map]
      rfl
    · cases h

theorem applied_of_updateSpeakersBySequence
    (h : updateSpeakersBySequence env db meetingId updates = .ok db') :
    db' = applied meetingId updates db := by
  rw [updateSpeakersBySequence] at h
  split at h
  next hempty =>
    rw [List.isEmpty_iff.mp hempty]
    have hnone : updateSpeakers env meetingId 0 db [] = .ok db' := h
    exact applied_of_updateSpeakers hnone
  next =>
    split at h
    next hupdate =>
      split at h
      · exact Except.ok.inj h ▸ applied_of_updateSpeakers hupdate
      · cases h
    next => cases h

/-- What the guarded update promises. -/
structure Guarded (env : SqlEnv) (db : Database) (meetingId : String)
    (updates : List SpeakerUpdate) : Prop where
  /-- it applies all assignments, -/
  all : ∀ db', updateSpeakersBySequence env db meetingId updates = .ok db' →
    databaseAfter env db meetingId updates = applied meetingId updates db
  /-- or on an error none -/
  none : ∀ message, updateSpeakersBySequence env db meetingId updates = .error message →
    databaseAfter env db meetingId updates = db
  /-- it changes only the speaker and the profile of rows, and only of those which an assignment
  finds as they are -/
  frame : ∃ f : TranscriptRow → TranscriptRow,
    databaseAfter env db meetingId updates = { db with transcripts := db.transcripts.map f } ∧
      ∀ row, f row ≠ row → (∃ update ∈ updates, update.Finds meetingId row) ∧
        f row = { row with speaker := (f row).speaker, voiceProfileId := (f row).voiceProfileId }
  /-- a second time it changes nothing further -/
  again : ∀ db', updateSpeakersBySequence env db meetingId updates = .ok db' →
    ∀ env', databaseAfter env' db' meetingId updates = db'

theorem databaseAfter_of_ok (h : updateSpeakersBySequence env db meetingId updates = .ok db') :
    databaseAfter env db meetingId updates = applied meetingId updates db := by
  rw [databaseAfter, h, ← applied_of_updateSpeakersBySequence h]
  rfl

theorem databaseAfter_of_error {message : String}
    (h : updateSpeakersBySequence env db meetingId updates = .error message) :
    databaseAfter env db meetingId updates = db := by
  rw [databaseAfter, h]
  rfl

theorem applied_again (h : NoWayBack updates) (db : Database) :
    applied meetingId updates (applied meetingId updates db) = applied meetingId updates db := by
  simp only [applied, List.map_map, Database.mk.injEq, true_and, and_true]
  exact List.map_congr_left fun row _ => rowAfter_again h row

/-- **The guarded update.** If no assignment makes what an earlier one for its sequence number
expects, the update applies all assignments or none, changes only rows that they find, and changes
nothing further when it is called again. -/
theorem guardedUpdate_of_noWayBack (env : SqlEnv) (db : Database) (meetingId : String)
    (h : NoWayBack updates) : Guarded env db meetingId updates := by
  refine ⟨fun db' hok => databaseAfter_of_ok hok, fun message => databaseAfter_of_error, ?_,
    fun db' hok env' => ?_⟩
  · cases hresult : updateSpeakersBySequence env db meetingId updates with
    | ok db' =>
      refine ⟨rowAfter meetingId updates, databaseAfter_of_ok hresult, fun row hne => ?_⟩
      exact ⟨finds_of_rowAfter_ne hne, rowAfter_eq updates row⟩
    | error message =>
      refine ⟨id, ?_, fun row hne => absurd rfl hne⟩
      rw [databaseAfter_of_error hresult, List.map_id]
  · obtain rfl := applied_of_updateSpeakersBySequence hok
    cases hresult : updateSpeakersBySequence env' (applied meetingId updates db) meetingId updates with
    | ok db'' => rw [databaseAfter_of_ok hresult, applied_again h]
    | error message => exact databaseAfter_of_error hresult

/-! ## Chains of labels -/

/-- A row of a meeting. -/
def labelled (id : String) (sequenceId : Int64) (speaker : String) : TranscriptRow :=
  ⟨id, "meeting-1", "", "", none, none, none, some speaker, none, some sequenceId, none, none⟩

/-- Two segments whose labels are swapped. -/
theorem guarded_swapped :
    Guarded calm ⟨["meeting-1"], [labelled "a" 1 "Speaker 1", labelled "b" 2 "Speaker 2"], []⟩
      "meeting-1" [⟨1, "Speaker 1", "Speaker 2", none⟩, ⟨2, "Speaker 2", "Speaker 1", none⟩] :=
  guardedUpdate_of_noWayBack _ _ _ (noWayBack_of_nodup (by decide))

/-- Two assignments for one sequence number, of which the second makes what the first expects: the
second run applies the first. -/
theorem not_guardedUpdate_chained :
    ¬∀ (env : SqlEnv) (db : Database) (meetingId : String) (updates : List SpeakerUpdate),
      Guarded env db meetingId updates := by
  intro h
  let updates : List SpeakerUpdate :=
    [⟨1, "Speaker 2", "Speaker 3", none⟩, ⟨1, "Speaker 1", "Speaker 2", none⟩]
  have hguarded := h calm ⟨["meeting-1"], [labelled "a" 1 "Speaker 1"], []⟩ "meeting-1" updates
  have hfirst : updateSpeakersBySequence calm
      ⟨["meeting-1"], [labelled "a" 1 "Speaker 1"], []⟩ "meeting-1" updates =
        .ok ⟨["meeting-1"], [labelled "a" 1 "Speaker 2"], []⟩ := by
    simp [updates, updateSpeakersBySequence, updateSpeakers, updateSpeaker, calm, labelled]
  have hagain := hguarded.again _ hfirst calm
  have hsecond : databaseAfter calm ⟨["meeting-1"], [labelled "a" 1 "Speaker 2"], []⟩ "meeting-1"
      updates = ⟨["meeting-1"], [labelled "a" 1 "Speaker 3"], []⟩ := by
    simp [updates, databaseAfter, updateSpeakersBySequence, updateSpeakers, updateSpeaker, calm,
      labelled, Except.toOption]
  rw [hsecond] at hagain
  simp [labelled] at hagain

end SpeakerUpdate

end MeetilyLocal
