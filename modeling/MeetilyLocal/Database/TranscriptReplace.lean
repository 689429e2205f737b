import MeetilyLocal.Database.Transcripts

/-!
# Replacing the transcript of a meeting

What `replace_transcripts_for_meeting` keeps of the segments it is given. A row that carries all
columns of its segment, as `save_transcript` stores it, is reached by every later speaker
refinement that names the segment by its sequence number (`KeepsSegments.reaches`). The rows of a
replaced transcript lack the sequence number, the source and the confidence score, so they carry
their segments only where these have none (`TranscriptsRepository.keepsSegments_replace_iff`).
-/

namespace MeetilyLocal

namespace TranscriptsRepository

/-- The rows of a meeting. -/
def rowsOf (db : Database) (meetingId : String) : List TranscriptRow :=
  db.transcripts.filter fun row => row.meetingId == meetingId

/-- A row carries every column of a segment that `save_transcript` stores; its primary key, and the
timestamp of a segment without one, are its own. -/
def Carries (meetingId : String) (segment : TranscriptSegment) (row : TranscriptRow) : Prop :=
  ∃ id now, row = segmentRow id meetingId now segment

/-- A refinement on the segment itself: the label changes if the segment has the sequence number,
has the expected label and is not linked to a voice profile. -/
def refineSegment (update : SpeakerUpdate) (segment : TranscriptSegment) : TranscriptSegment :=
  if segment.sequenceId = some update.sequenceId ∧ segment.speaker = some update.expectedSpeaker ∧
      segment.voiceProfileId = none then
    { segment with speaker := some update.newSpeaker, voiceProfileId := update.newProfileId }
  else segment

/-- The segments after refinements. -/
def refineSegments (updates : List SpeakerUpdate) (segments : List TranscriptSegment) :
    List TranscriptSegment :=
  updates.foldl (fun segments update => segments.map (refineSegment update)) segments

/-- The rows of a meeting keep what later passes need of its segments: there is one for each, which
carries it, and refinements that name their sequence numbers reach exactly the rows they name. -/
structure KeepsSegments (db : Database) (meetingId : String) (segments : List TranscriptSegment) :
    Prop where
  /-- each row carries its segment -/
  carries : List.Forall₂ (Carries meetingId) segments (rowsOf db meetingId)
  /-- refinements of the rows are refinements of the segments -/
  reaches : ∀ env updates db', (∀ update ∈ updates, ∃ segment ∈ segments,
      segment.sequenceId = some update.sequenceId) →
    updateSpeakersBySequence env db meetingId updates = .ok db' →
    List.Forall₂ (Carries meetingId) (refineSegments updates segments) (rowsOf db' meetingId)

/-! ## What statements do to the rows of a meeting -/

/-- What a relation of two lists says of the elements of the second. -/
theorem forall_mem_of_forall₂ {α β : Type} {R : α → β → Prop} {P : β → Prop} {as : List α}
    {bs : List β} (h : List.Forall₂ R as bs) (himp : ∀ a b, R a b → P b) : ∀ b ∈ bs, P b :=
  ((List.forall₂_and_left bs as).mp (List.Forall₂.flip
    (h.imp fun a b hab => (⟨himp a b hab, hab⟩ : P b ∧ flip R b a)))).1

/-- An insert that succeeds appends its row. -/
theorem of_insertRow {db db' : Database} {row : TranscriptRow} (h : insertRow db row = .ok db') :
    db' = { db with transcripts := db.transcripts ++ [row] } := by
  rw [insertRow] at h
  split at h
  · cases h
  split at h
  · cases h
  split at h
  · cases h
  · exact (Except.ok.inj h).symm

/-- Inserts that succeed append their rows. -/
theorem of_insertAll {env : SqlEnv} {row : ℕ → TranscriptSegment → TranscriptRow} {k : ℕ}
    {db db' : Database} {segments : List TranscriptSegment}
    (h : insertAll env row k db segments = .ok db') :
    ∃ rows, db' = { db with transcripts := db.transcripts ++ rows } ∧
      List.Forall₂ (fun segment stored => ∃ j, stored = row j segment) segments rows := by
  induction segments generalizing k db with
  | nil => exact ⟨[], by rw [List.append_nil]; exact (Except.ok.inj h).symm, .nil⟩
  | cons segment segments ih =>
    rw [insertAll] at h
    split at h
    · rcases hrow : insertRow db (row k segment) with message | db₁
      · rw [hrow] at h
        cases h
      · rw [hrow] at h
        obtain ⟨rows, hdb, hrows⟩ := ih h
        refine ⟨row k segment :: rows, ?_, .cons ⟨k, rfl⟩ hrows⟩
        rw [hdb, of_insertRow hrow, List.append_assoc, List.singleton_append]
    · cases h

/-- What a replacement that succeeds leaves. -/
theorem of_replaceTranscriptsForMeeting {env : SqlEnv} {db db' : Database} {meetingId : String}
    {segments : List TranscriptSegment}
    (h : replaceTranscriptsForMeeting env db meetingId segments = .ok db') :
    ∃ rows, db' = { db with transcripts :=
        (db.transcripts.filter fun row => row.meetingId != meetingId) ++ rows } ∧
      List.Forall₂ (fun segment stored => ∃ j, stored = replaceRow meetingId (env.now j) segment)
        segments rows := by
  rw [replaceTranscriptsForMeeting] at h
  split at h
  · cases h
  simp only at h
  split at h
  · next hinsert =>
    split at h
    · obtain ⟨rows, hdb, hrows⟩ := of_insertAll hinsert
      exact ⟨rows, Except.ok.inj h ▸ hdb, hrows⟩
    · cases h
  · cases h

/-- The rows of a meeting that were appended to those of other meetings. -/
theorem rowsOf_append {db : Database} {meetingId : String} {others rows : List TranscriptRow}
    (hothers : ∀ row ∈ others, row.meetingId ≠ meetingId)
    (hrows : ∀ row ∈ rows, row.meetingId = meetingId) :
    rowsOf { db with transcripts := others ++ rows } meetingId = rows := by
  have hnone : others.filter (fun row => row.meetingId == meetingId) = [] :=
    List.filter_eq_nil_iff.mpr fun row hmem => by simpa using hothers row hmem
  have hall : rows.filter (fun row => row.meetingId == meetingId) = rows :=
    List.filter_eq_self.mpr fun row hmem => by simpa using hrows row hmem
  rw [rowsOf, List.filter_append, hnone, hall, List.nil_append]

/-! ## Refinements -/

/-- A refinement of a row that carries a segment is one of the segment. -/
theorem Carries.updateSpeaker {meetingId : String} {segment : TranscriptSegment}
    {row : TranscriptRow} (h : Carries meetingId segment row) (update : SpeakerUpdate) :
    Carries meetingId (refineSegment update segment)
      (TranscriptsRepository.updateSpeaker meetingId update row) := by
  obtain ⟨id, now, rfl⟩ := h
  refine ⟨id, now, ?_⟩
  have hnumber : (segment.sequenceId.map UInt64.toInt64 = some update.sequenceId.toInt64) ↔
      segment.sequenceId = some update.sequenceId := map_toInt64_eq_some
  by_cases hguard : segment.sequenceId = some update.sequenceId ∧
      segment.speaker = some update.expectedSpeaker ∧ segment.voiceProfileId = none
  · simp [TranscriptsRepository.updateSpeaker, refineSegment, segmentRow, hguard]
  · simp [TranscriptsRepository.updateSpeaker, refineSegment, segmentRow, hnumber, hguard]

theorem meetingId_updateSpeaker (meetingId : String) (update : SpeakerUpdate)
    (row : TranscriptRow) : (updateSpeaker meetingId update row).meetingId = row.meetingId := by
  rw [updateSpeaker]
  split <;> rfl

/-- The rows of a meeting after one statement. -/
theorem rowsOf_map_updateSpeaker (db : Database) (meetingId : String) (update : SpeakerUpdate) :
    rowsOf { db with transcripts := db.transcripts.map (updateSpeaker meetingId update) } meetingId =
      (rowsOf db meetingId).map (updateSpeaker meetingId update) := by
  rw [rowsOf, rowsOf, List.filter_map]
  congr 1
  exact List.filter_congr fun row _ => by simp [meetingId_updateSpeaker]

theorem forall₂_updateSpeakers {env : SqlEnv} {meetingId : String} {k : ℕ} {db db' : Database}
    {updates : List SpeakerUpdate} {segments : List TranscriptSegment}
    (hcarries : List.Forall₂ (Carries meetingId) segments (rowsOf db meetingId))
    (h : updateSpeakers env meetingId k db updates = .ok db') :
    List.Forall₂ (Carries meetingId) (refineSegments updates segments) (rowsOf db' meetingId) := by
  induction updates generalizing k db segments with
  | nil => exact Except.ok.inj h ▸ hcarries
  | cons update updates ih =>
    rw [updateSpeakers] at h
    split at h
    · rw [refineSegments, List.foldl_cons, ← refineSegments]
      refine ih ?_ h
      rw [rowsOf_map_updateSpeaker, List.forall₂_map_left_iff, List.forall₂_map_right_iff]
      exact hcarries.imp fun _ _ hrow => hrow.updateSpeaker update
    · cases h

/-- Rows that carry their segments keep what later passes need. -/
theorem KeepsSegments.of_carries {db : Database} {meetingId : String}
    {segments : List TranscriptSegment}
    (hcarries : List.Forall₂ (Carries meetingId) segments (rowsOf db meetingId)) :
    KeepsSegments db meetingId segments := by
  refine ⟨hcarries, fun env updates db' _ h => ?_⟩
  rw [updateSpeakersBySequence] at h
  split at h
  · next hempty =>
    rw [List.isEmpty_iff.mp hempty]
    exact Except.ok.inj h ▸ hcarries
  · split at h
    · next hupdate =>
      split at h
      · exact Except.ok.inj h ▸ forall₂_updateSpeakers hcarries hupdate
      · cases h
    · cases h

/-! ## The two ways to store a transcript -/

/-- `save_transcript` keeps the segments, where no row belonged to the new meeting. -/
theorem keepsSegments_save {env : SqlEnv} {db db' : Database} {meetingId : String}
    {segments : List TranscriptSegment}
    (hforeign : ∀ row ∈ db.transcripts, row.meetingId ∈ db.meetings)
    (h : saveTranscript env db segments = .ok (meetingId, db')) :
    KeepsSegments db' meetingId segments := by
  rw [saveTranscript] at h
  simp only at h
  split at h
  · cases h
  next hok =>
  obtain ⟨-, hnew⟩ : env.ok 0 = true ∧ "meeting-" ++ env.uuid 0 ∉ db.meetings := by
    simpa using hok
  split at h
  · next hinsert =>
    split at h
    · obtain ⟨rfl, rfl⟩ := Prod.mk.inj (Except.ok.inj h)
      obtain ⟨rows, hdb, hrows⟩ := of_insertAll hinsert
      have hrows' : List.Forall₂ (Carries ("meeting-" ++ env.uuid 0)) segments rows :=
        hrows.imp fun _ _ ⟨_, hrow⟩ => ⟨_, _, hrow⟩
      refine .of_carries ?_
      rw [hdb, rowsOf_append]
      · exact hrows'
      · exact fun row hmem heq => hnew (heq ▸ hforeign row hmem)
      · exact forall_mem_of_forall₂ hrows' fun _ _ ⟨_, _, hrow⟩ => congrArg TranscriptRow.meetingId hrow
    · cases h
  · cases h

/-- Where a replaced row carries its segment. -/
theorem carries_replaceRow_iff {meetingId now : String} {segment : TranscriptSegment} :
    Carries meetingId segment (replaceRow meetingId now segment) ↔
      segment.sequenceId = none ∧ segment.source = none ∧ bindFloat32 segment.confidence = none := by
  constructor
  · rintro ⟨id, now', heq⟩
    have hsequence := congrArg TranscriptRow.sequenceId heq
    have hsource := congrArg TranscriptRow.source heq
    have hconfidence := congrArg TranscriptRow.confidence heq
    exact ⟨Option.map_eq_none_iff.mp hsequence.symm, hsource.symm, hconfidence.symm⟩
  · rintro ⟨hsequence, hsource, hconfidence⟩
    refine ⟨segment.id, now, ?_⟩
    simp [replaceRow, segmentRow, hsequence, hsource, hconfidence]

/-- **Replacing.** A replaced transcript keeps what later passes need if and only if no segment has
a sequence number, a source or a confidence score. -/
theorem keepsSegments_replace_iff {env : SqlEnv} {db db' : Database} {meetingId : String}
    {segments : List TranscriptSegment}
    (h : replaceTranscriptsForMeeting env db meetingId segments = .ok db') :
    KeepsSegments db' meetingId segments ↔ ∀ segment ∈ segments,
      segment.sequenceId = none ∧ segment.source = none ∧
        bindFloat32 segment.confidence = none := by
  obtain ⟨rows, hdb, hrows⟩ := of_replaceTranscriptsForMeeting h
  have hrowsOf : rowsOf db' meetingId = rows := by
    rw [hdb, rowsOf_append]
    · intro row hmem
      simpa using (List.mem_filter.mp hmem).2
    · exact forall_mem_of_forall₂ hrows fun _ _ ⟨_, hrow⟩ => congrArg TranscriptRow.meetingId hrow
  constructor
  · intro hkeeps
    have hcarries : List.Forall₂ (Carries meetingId) segments rows := hrowsOf ▸ hkeeps.carries
    have hboth : List.Forall₂ (fun segment row => (segment.sequenceId = none ∧
        segment.source = none ∧ bindFloat32 segment.confidence = none) ∧
          Carries meetingId segment row) segments rows := by
      refine hrows.mp (fun segment row hrow hcarry => ?_) hcarries
      obtain ⟨j, rfl⟩ := hrow
      exact ⟨carries_replaceRow_iff.mp hcarry, hcarry⟩
    exact ((List.forall₂_and_left segments rows).mp hboth).1
  · intro hnone
    refine .of_carries (hrowsOf ▸ ?_)
    refine ((List.forall₂_and_left segments rows).mpr ⟨hnone, hrows⟩).imp ?_
    rintro segment row ⟨hsegment, j, rfl⟩
    exact carries_replaceRow_iff.mpr hsegment

/-! ### A retranscribed meeting -/

/-- A segment as a retranscription produces it, at its position in the batch. -/
def retranscribed (sequenceId : UInt64) (speaker : String) : TranscriptSegment :=
  ⟨"transcript-" ++ toString sequenceId.toNat, "Hello", some "2026-01-01T10:00:00+00:00", none, none,
    none, none, none, some sequenceId, some speaker, none, none⟩

/-- A database with one meeting. -/
def oneMeeting : Database := ⟨["meeting-1"], [], []⟩

/-- All statements succeed. -/
def calm : SqlEnv := ⟨fun _ => true, fun _ => "2026-01-01T10:00:00+00:00", fun k => toString k⟩

theorem keepsSegments_replace_retranscribed :
    ∃ db, replaceTranscriptsForMeeting calm oneMeeting "meeting-1"
      [retranscribed 0 "Speaker 1", retranscribed 1 "Speaker 2"] = .ok db ∧
        (KeepsSegments db "meeting-1" [retranscribed 0 "Speaker 1", retranscribed 1 "Speaker 2"] ↔
          ∀ segment ∈ [retranscribed 0 "Speaker 1", retranscribed 1 "Speaker 2"],
            segment.sequenceId = none ∧ segment.source = none ∧
              bindFloat32 segment.confidence = none) :=
  ⟨_, rfl, keepsSegments_replace_iff (show replaceTranscriptsForMeeting calm oneMeeting "meeting-1"
    [retranscribed 0 "Speaker 1", retranscribed 1 "Speaker 2"] = .ok _ from rfl)⟩

/-- A retranscribed segment is not kept. -/
theorem not_keepsSegments_retranscribed :
    ¬∀ (env : SqlEnv) (db db' : Database) (meetingId : String) (segments : List TranscriptSegment),
      replaceTranscriptsForMeeting env db meetingId segments = .ok db' →
        KeepsSegments db' meetingId segments := by
  intro h
  have hkeeps := h calm oneMeeting _ "meeting-1" [retranscribed 0 "Speaker 1"] rfl
  cases hkeeps.carries with
  | cons hcarries _ =>
    obtain ⟨hsequence, -⟩ := carries_replaceRow_iff.mp hcarries
    cases hsequence

end TranscriptsRepository

end MeetilyLocal
