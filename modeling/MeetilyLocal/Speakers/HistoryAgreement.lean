import MeetilyLocal.Database.TranscriptReplace
import MeetilyLocal.Speakers.SpeakerNaming

/-!
# The history and the saved rows

A diarizer remembers under which label each segment of its session goes, and the rows of the meeting
say it again. `EmbeddingRecord` promises that the two always agree. Here is what the operations on
one meeting do to that promise: promoting, merging and renaming change only the rows, and a
refinement changes the records even of segments whose rows it did not find. The promise is kept by a
session in which no record of a saved segment is renamed, and in which a refinement relabels saved
segments only (`SpeakerSession.agrees_of_reaches`).
-/

namespace MeetilyLocal

open TranscriptsRepository SpeakerService

/-- A session of one meeting. -/
structure SpeakerSession : Type where
  /-- the diarizer of the meeting, which is the current one -/
  diarizer : Diarizer
  /-- the database -/
  db : Database
  /-- the segments that wait to be written -/
  waiting : List TranscriptSegment

namespace SpeakerSession

/-- What happens to a session. -/
inductive Op : Type where
  /-- a segment is diarized, if there are samples or an embedding, and queued -/
  | process (segment : TranscriptSegment) (sequenceId : UInt64) (samples : Option (List Float32))
      (embedding : Option (List Float32)) (forcedCluster : Option ℕ) (defaultSpeaker : Option String)
  /-- so many segments of the queue are flushed to the database -/
  | save (env : SqlEnv) (count : ℕ)
  /-- `refine_and_persist` -/
  | refine (env : SqlEnv)
  /-- `promote_speaker_to_profile_core` -/
  | promote (env : SqlEnv) (oldLabel trimmedName : String) (normalisedEmail : Option String)
  /-- `merge_cluster_into_profile_core` -/
  | mergeCluster (env : SqlEnv) (oldLabel profileId : String)
  /-- `rename_speaker_in_meeting` -/
  | rename (env : SqlEnv) (oldLabel newLabel : String) (profileId : Option String)

/-- A session at its start. -/
def start (embedder : List Float32 → Except String (List Float32))
    (profileMatcher : Option SpeakerProfileMatcher) (db : Database) : SpeakerSession :=
  ⟨.new embedder defaultClusterThreshold profileMatcher, db, []⟩

/-- The speaker of a segment: the result of the diarizer, or else the default. -/
def attributed (d : Diarizer) (sequenceId : UInt64) (samples embedding : Option (List Float32))
    (forcedCluster : Option ℕ) (defaultSpeaker : Option String) :
    (Option String × Option String) × Diarizer :=
  if embedding.isSome || samples.isSome then
    match d.processInner sequenceId (samples.getD []) embedding forcedCluster with
    | .ok (result, d) => ((some result.label, result.voiceProfileId), d)
    | .error _ => ((defaultSpeaker, none), d)
  else ((defaultSpeaker, none), d)

/-- A segment as it is handed on, with its speaker and the voice profile of that. -/
def published (segment : TranscriptSegment) (sequenceId : UInt64)
    (speaker : Option String × Option String) : TranscriptSegment :=
  { segment with
    sequenceId := some sequenceId
    speaker := speaker.1
    voiceProfileId := speaker.2 }

variable (meetingId : String)

/-- The session after an operation. -/
def exec (s : SpeakerSession) : Op → SpeakerSession
  | .process segment sequenceId samples embedding forcedCluster defaultSpeaker =>
    let attribution :=
      attributed s.diarizer sequenceId samples embedding forcedCluster defaultSpeaker
    { s with
      diarizer := attribution.2
      waiting := s.waiting ++ [published segment sequenceId attribution.1] }
  | .save env count =>
    let items := (s.waiting.take count).map fun segment => (meetingId, segment)
    match upsertTranscriptSegments env s.db items with
    | .ok (_, db) => { s with db := db, waiting := s.waiting.drop count }
    -- a batch that fails is only logged
    | .error _ => { s with waiting := s.waiting.drop count }
  | .refine env =>
    let (slot, db) := (refineAndPersist env (some s.diarizer) s.db meetingId).2
    { s with diarizer := slot.getD s.diarizer, db := db }
  | .promote env oldLabel trimmedName normalisedEmail =>
    { s with db := (promoteSpeakerToProfileCore env (some s.diarizer) s.db oldLabel trimmedName
        normalisedEmail meetingId).2 }
  | .mergeCluster env oldLabel profileId =>
    { s with db :=
        (mergeClusterIntoProfileCore env (some s.diarizer) s.db meetingId oldLabel profileId).2 }
  | .rename env oldLabel newLabel profileId =>
    match SpeakerService.rename env 0 s.db meetingId oldLabel newLabel profileId with
    | .ok (_, db) => { s with db := db }
    | .error _ => s

/-- The states that a session reaches with the operations that are allowed. -/
inductive Reaches (allows : SpeakerSession → Op → Prop) (s : SpeakerSession) :
    SpeakerSession → Prop where
  /-- before any operation -/
  | refl : Reaches allows s s
  /-- after one more operation -/
  | step {t : SpeakerSession} (op : Op) : Reaches allows s t → allows t op →
      Reaches allows s (exec meetingId t op)

/-! ## The promise -/

/-- A row is that of a record. -/
def IsRowOf (record : EmbeddingRecord) (row : TranscriptRow) : Prop :=
  row.meetingId = meetingId ∧ row.sequenceId = some record.sequenceId.toInt64

/-- A record and its row say the same. -/
def SaysSame (record : EmbeddingRecord) (row : TranscriptRow) : Prop :=
  row.speaker = some record.label ∧ row.voiceProfileId = record.voiceProfileId

/-- Every record whose row exists says what the row says. -/
def Agrees (s : SpeakerSession) : Prop :=
  ∀ record ∈ s.diarizer.history, ∀ row ∈ s.db.transcripts,
    IsRowOf meetingId record row → SaysSame record row

/-- The guard of `update_speakers_by_sequence` lets the assignment of a record through to a row. -/
def Guarded (record : EmbeddingRecord) (row : TranscriptRow) : Prop :=
  IsRowOf meetingId record row ∧ row.speaker = some record.label ∧ row.voiceProfileId = none

/-- A refinement leaves the records whose assignments the guard skipped. -/
def KeepsSkipped (s s' : SpeakerSession) : Prop :=
  List.Forall₂ (fun record record' =>
      (∀ row ∈ s.db.transcripts, ¬Guarded meetingId record row) → record' = record)
    s.diarizer.history s'.diarizer.history

/-- The history and the rows agree, and the next refinement leaves what it has to. -/
def InStep (allows : SpeakerSession → Op → Prop) (s : SpeakerSession) : Prop :=
  Agrees meetingId s ∧
    ∀ env, allows s (.refine env) → KeepsSkipped meetingId s (exec meetingId s (.refine env))

/-! ## When it is kept -/

/-- The segment of a record was saved. -/
def Saved (s : SpeakerSession) (record : EmbeddingRecord) : Prop :=
  ∃ row ∈ s.db.transcripts, IsRowOf meetingId record row

/-- A label that no record of a saved segment has, or one that stays with all of them. -/
def RenameSafe (s : SpeakerSession) (oldLabel newLabel : String) (profileId : Option String) :
    Prop :=
  ∀ record ∈ s.diarizer.history, Saved meetingId s record → record.label = oldLabel →
    newLabel = oldLabel ∧ profileId = record.voiceProfileId

/-- Segments are counted up; where the statements succeed, only labels that no record of a saved
segment has are renamed, and only the records of saved segments are refined. -/
def Careful (s : SpeakerSession) : Op → Prop
  | .process _ sequenceId _ _ _ _ =>
    (∀ record ∈ s.diarizer.history, record.sequenceId ≠ sequenceId) ∧
      (∀ segment ∈ s.waiting, segment.sequenceId ≠ some sequenceId) ∧
      ∀ row ∈ s.db.transcripts,
        ¬(row.meetingId = meetingId ∧ row.sequenceId = some sequenceId.toInt64)
  | .save _ _ => True
  | .refine env => ∀ refined, s.diarizer.refine = some refined →
      (∀ k ≤ (refinementUpdates refined).length, env.ok k = true) →
      ∀ record ∈ s.diarizer.history, ∀ a ∈ refined, a.sequenceId = record.sequenceId →
        a.changed = true → Saved meetingId s record
  | .promote env oldLabel _ _ => env.ok 0 = true → env.ok 1 = true →
      ∀ record ∈ s.diarizer.history, record.label = oldLabel → ¬Saved meetingId s record
  | .mergeCluster env oldLabel profileId => env.ok 0 = true → env.ok 2 = true →
      ∀ profile, VoiceProfilesRepository.getById s.db profileId = some profile →
        RenameSafe meetingId s oldLabel profile.name (some profile.id)
  | .rename env oldLabel newLabel profileId => env.ok 0 = true →
      RenameSafe meetingId s oldLabel newLabel profileId

/-! ## Rows after a statement -/

variable {meetingId : String} {env : SqlEnv} {db db' : Database}

/-- A row after an upsert was there before, or has all columns but the key from the new one. -/
theorem mem_upsertRow {row r : TranscriptRow} (h : upsertRow db row = .ok db')
    (hr : r ∈ db'.transcripts) : r ∈ db.transcripts ∨ ∃ id, r = { row with id := id } := by
  rw [upsertRow] at h
  simp only at h
  split at h
  · rw [← Except.ok.inj h] at hr
    obtain ⟨other, hother, rfl⟩ := List.mem_map.mp hr
    split
    · exact .inr ⟨other.id, rfl⟩
    · exact .inl hother
  · rw [of_insertRow h] at hr
    rcases List.mem_append.mp hr with hold | hnew
    · exact .inl hold
    · exact .inr ⟨row.id, List.mem_singleton.mp hnew⟩

/-- A row after the upserts was there before, or is that of a segment. -/
theorem mem_upsertAll {k : ℕ} {items : List (String × TranscriptSegment)} {r : TranscriptRow}
    (h : upsertAll env k db items = .ok db') (hr : r ∈ db'.transcripts) :
    r ∈ db.transcripts ∨ ∃ item ∈ items, ∃ id now, r = segmentRow id item.1 now item.2 := by
  induction items generalizing k db with
  | nil => exact .inl (Except.ok.inj h ▸ hr)
  | cons item items ih =>
    rw [upsertAll] at h
    split at h
    · simp only at h
      split at h
      · next hrow =>
        rcases ih h with hmem | ⟨item', hitem', id, now, rfl⟩
        · rcases mem_upsertRow hrow hmem with hold | ⟨id, rfl⟩
          · exact .inl hold
          · exact .inr ⟨item, List.mem_cons_self, id, _, rfl⟩
        · exact .inr ⟨item', List.mem_cons_of_mem _ hitem', id, now, rfl⟩
      · cases h
    · cases h

theorem mem_upsertTranscriptSegments {n : ℕ} {items : List (String × TranscriptSegment)}
    {r : TranscriptRow} (h : upsertTranscriptSegments env db items = .ok (n, db'))
    (hr : r ∈ db'.transcripts) :
    r ∈ db.transcripts ∨ ∃ item ∈ items, ∃ id now, r = segmentRow id item.1 now item.2 := by
  rw [upsertTranscriptSegments] at h
  split at h
  · obtain ⟨-, rfl⟩ := Prod.mk.inj (Except.ok.inj h)
    exact .inl hr
  split at h
  · next hall =>
    split at h
    · obtain ⟨-, rfl⟩ := Prod.mk.inj (Except.ok.inj h)
      exact mem_upsertAll hall hr
    · cases h
  · cases h

/-- A row after the statements of a refinement. -/
def rowAfter (meetingId : String) (updates : List SpeakerUpdate) (row : TranscriptRow) :
    TranscriptRow :=
  updates.foldl (fun row update => updateSpeaker meetingId update row) row

@[simp] theorem sequenceId_updateSpeaker (update : SpeakerUpdate) (row : TranscriptRow) :
    (updateSpeaker meetingId update row).sequenceId = row.sequenceId := by
  rw [updateSpeaker]
  split <;> rfl

theorem rowAfter_keys (updates : List SpeakerUpdate) (row : TranscriptRow) :
    (rowAfter meetingId updates row).meetingId = row.meetingId ∧
      (rowAfter meetingId updates row).sequenceId = row.sequenceId := by
  induction updates generalizing row with
  | nil => exact ⟨rfl, rfl⟩
  | cons update updates ih =>
    obtain ⟨hmeeting, hsequence⟩ := ih (updateSpeaker meetingId update row)
    exact ⟨hmeeting.trans (meetingId_updateSpeaker ..), hsequence.trans (by simp)⟩

/-- Statements with other sequence numbers leave a row. -/
theorem rowAfter_of_ne {updates : List SpeakerUpdate} {row : TranscriptRow}
    (h : ∀ update ∈ updates, row.sequenceId ≠ some update.sequenceId.toInt64) :
    rowAfter meetingId updates row = row := by
  induction updates with
  | nil => rfl
  | cons update updates ih =>
    have hskip : updateSpeaker meetingId update row = row := by
      rw [updateSpeaker, if_neg]
      rintro ⟨-, hsequence, -⟩
      exact h update List.mem_cons_self hsequence
    rw [rowAfter, List.foldl_cons, hskip, ← rowAfter]
    exact ih fun other hother => h other (List.mem_cons_of_mem _ hother)

/-- Where no sequence number recurs, a row is changed by its own statement only. -/
theorem rowAfter_of_mem {updates : List SpeakerUpdate} {update : SpeakerUpdate}
    {row : TranscriptRow} (hdistinct : (updates.map SpeakerUpdate.sequenceId).Nodup)
    (hmem : update ∈ updates) (hrow : row.sequenceId = some update.sequenceId.toInt64) :
    rowAfter meetingId updates row = updateSpeaker meetingId update row := by
  induction updates with
  | nil => cases hmem
  | cons first updates ih =>
    obtain ⟨hfirst, hrest⟩ := List.nodup_cons.mp (List.map_cons ▸ hdistinct)
    have hother : ∀ other ∈ updates, other.sequenceId ≠ first.sequenceId :=
      fun other hother heq => hfirst (heq ▸ List.mem_map_of_mem hother)
    rw [rowAfter, List.foldl_cons, ← rowAfter]
    rcases List.mem_cons.mp hmem with rfl | hmem
    · refine rowAfter_of_ne fun other hin heq => hother other hin ?_
      rw [sequenceId_updateSpeaker, hrow] at heq
      exact (Int64.ofUInt64.inj (Option.some.inj heq)).symm
    · have hskip : updateSpeaker meetingId first row = row := by
        rw [updateSpeaker, if_neg]
        rintro ⟨-, hsequence, -⟩
        rw [hrow] at hsequence
        exact hother update hmem (Int64.ofUInt64.inj (Option.some.inj hsequence))
      rw [hskip]
      exact ih hrest hmem

theorem transcripts_updateSpeakers {k : ℕ} {updates : List SpeakerUpdate}
    (h : updateSpeakers env meetingId k db updates = .ok db') :
    db'.transcripts = db.transcripts.map (rowAfter meetingId updates) ∧
      ∀ i < updates.length, env.ok (k + i) = true := by
  induction updates generalizing k db with
  | nil =>
    refine ⟨?_, fun i hi => absurd hi (by simp)⟩
    rw [← Except.ok.inj h]
    exact (List.map_id _).symm
  | cons update updates ih =>
    rw [updateSpeakers] at h
    split at h
    · next hok =>
      obtain ⟨hrows, hall⟩ := ih h
      refine ⟨by rw [hrows, List.map_map]; rfl, fun i hi => ?_⟩
      cases i with
      | zero => exact hok
      | succ i =>
        have := hall i (by simpa using hi)
        rwa [Nat.add_assoc, Nat.add_comm 1 i] at this
    · cases h

/-- What a refinement of the rows does where it succeeds. -/
theorem of_updateSpeakersBySequence {updates : List SpeakerUpdate}
    (hne : updates.isEmpty = false)
    (h : updateSpeakersBySequence env db meetingId updates = .ok db') :
    db'.transcripts = db.transcripts.map (rowAfter meetingId updates) ∧
      ∀ k ≤ updates.length, env.ok k = true := by
  rw [updateSpeakersBySequence, hne] at h
  simp only [Bool.false_eq_true, if_false] at h
  split at h
  · next hupdate =>
    split at h
    · next hcommit =>
      obtain ⟨hrows, hall⟩ := transcripts_updateSpeakers hupdate
      refine ⟨Except.ok.inj h ▸ hrows, fun k hk => ?_⟩
      rcases Nat.lt_or_eq_of_le hk with hlt | rfl
      · simpa using hall k hlt
      · exact hcommit
    · cases h
  · cases h

/-! ## What every step keeps -/

/-- What is true of a careful session: no sequence number recurs, records and rows agree, and the
segments that wait have no rows yet and agree with their records. -/
structure Consistent (meetingId : String) (history : List EmbeddingRecord)
    (rows : List TranscriptRow) (waiting : List TranscriptSegment) : Prop where
  /-- no two records have one sequence number -/
  records : (history.map EmbeddingRecord.sequenceId).Nodup
  /-- no two waiting segments have one sequence number -/
  segments : (waiting.map TranscriptSegment.sequenceId).Nodup
  /-- records and rows say the same -/
  agrees : ∀ record ∈ history, ∀ row ∈ rows, IsRowOf meetingId record row → SaysSame record row
  /-- a waiting segment was not saved -/
  unsaved : ∀ segment ∈ waiting, ∀ n : UInt64, segment.sequenceId = some n →
    ∀ row ∈ rows, ¬(row.meetingId = meetingId ∧ row.sequenceId = some n.toInt64)
  /-- a waiting segment says what its record says -/
  carries : ∀ segment ∈ waiting, ∀ record ∈ history,
    segment.sequenceId = some record.sequenceId →
      segment.speaker = some record.label ∧ segment.voiceProfileId = record.voiceProfileId

namespace Consistent

variable {history : List EmbeddingRecord} {rows : List TranscriptRow}
  {waiting : List TranscriptSegment}

/-- A new segment with a new sequence number that waits, and its record if it has one. -/
theorem process (h : Consistent meetingId history rows waiting) {segment : TranscriptSegment}
    {sequenceId : UInt64} (hrecords : ∀ record ∈ history, record.sequenceId ≠ sequenceId)
    (hwaiting : ∀ other ∈ waiting, other.sequenceId ≠ some sequenceId)
    (hrows : ∀ row ∈ rows, ¬(row.meetingId = meetingId ∧ row.sequenceId = some sequenceId.toInt64))
    (hsegment : segment.sequenceId = some sequenceId) {added : List EmbeddingRecord}
    (hadded : added = [] ∨ ∃ record, added = [record] ∧ record.sequenceId = sequenceId ∧
      segment.speaker = some record.label ∧ segment.voiceProfileId = record.voiceProfileId) :
    Consistent meetingId (history ++ added) rows (waiting ++ [segment]) := by
  have hnew : ∀ record ∈ added, record.sequenceId = sequenceId ∧
      segment.speaker = some record.label ∧ segment.voiceProfileId = record.voiceProfileId := by
    rcases hadded with rfl | ⟨record, rfl, hrecord⟩
    · exact fun _ hmem => absurd hmem List.not_mem_nil
    · exact fun other hmem => List.mem_singleton.mp hmem ▸ hrecord
  refine ⟨?_, ?_, ?_, ?_, ?_⟩
  · rcases hadded with rfl | ⟨record, rfl, hrecord, -⟩
    · simpa using h.records
    · rw [List.map_append, List.nodup_append]
      refine ⟨h.records, by simp, ?_⟩
      simp only [List.map_cons, List.map_nil, List.mem_singleton]
      rintro _ hmem _ rfl rfl
      obtain ⟨other, hother, heq⟩ := List.mem_map.mp hmem
      exact hrecords other hother (heq.trans hrecord)
  · rw [List.map_append, List.nodup_append]
    refine ⟨h.segments, by simp, ?_⟩
    simp only [List.map_cons, List.map_nil, List.mem_singleton]
    rintro _ hmem _ rfl rfl
    obtain ⟨other, hother, heq⟩ := List.mem_map.mp hmem
    exact hwaiting other hother (heq.trans hsegment)
  · intro record hmem row hrow hof
    rcases List.mem_append.mp hmem with hold | hnewRecord
    · exact h.agrees record hold row hrow hof
    · obtain ⟨hnumber, -⟩ := hnew record hnewRecord
      exact absurd ⟨hof.1, hnumber ▸ hof.2⟩ (hrows row hrow)
  · intro other hmem n hn
    rcases List.mem_append.mp hmem with hold | hnewSegment
    · exact h.unsaved other hold n hn
    · rw [List.mem_singleton.mp hnewSegment, hsegment] at hn
      exact Option.some.inj hn ▸ hrows
  · intro other hmem record hrecord heq
    rcases List.mem_append.mp hmem with hold | hnewSegment
    · rcases List.mem_append.mp hrecord with hold' | hnewRecord
      · exact h.carries other hold record hold' heq
      · exact absurd ((hnew record hnewRecord).1 ▸ heq) (hwaiting other hold)
    · rw [List.mem_singleton.mp hnewSegment] at heq ⊢
      rcases List.mem_append.mp hrecord with hold' | hnewRecord
      · rw [hsegment] at heq
        exact absurd (Option.some.inj heq).symm (hrecords record hold')
      · exact (hnew record hnewRecord).2

/-- Segments that no longer wait. -/
theorem drop (h : Consistent meetingId history rows waiting) (count : ℕ) :
    Consistent meetingId history rows (waiting.drop count) := by
  refine ⟨h.records, ?_, h.agrees, ?_, ?_⟩
  · exact h.segments.sublist ((List.drop_sublist count waiting).map _)
  · exact fun segment hmem => h.unsaved segment (List.mem_of_mem_drop hmem)
  · exact fun segment hmem => h.carries segment (List.mem_of_mem_drop hmem)

/-- Segments at the front of the queue are saved. -/
theorem save (h : Consistent meetingId history rows waiting) (count : ℕ)
    {rows' : List TranscriptRow} (hrows : ∀ row ∈ rows', row ∈ rows ∨
      ∃ segment ∈ waiting.take count, ∃ id now, row = segmentRow id meetingId now segment) :
    Consistent meetingId history rows' (waiting.drop count) := by
  obtain ⟨hrecords, hsegments, -, hunsaved, hcarries⟩ := h.drop count
  refine ⟨hrecords, hsegments, ?_, ?_, hcarries⟩
  · intro record hrecord row hrow hof
    rcases hrows row hrow with hold | ⟨segment, hsegment, id, now, rfl⟩
    · exact h.agrees record hrecord row hold hof
    · exact h.carries segment (List.mem_of_mem_take hsegment) record hrecord
        (map_toInt64_eq_some.mp hof.2)
  · intro segment hsegment n hn row hrow hof
    rcases hrows row hrow with hold | ⟨saved, hsaved, id, now, rfl⟩
    · exact hunsaved segment hsegment n hn row hold hof
    · -- the saved segment would have the sequence number of one that still waits
      have hsame : saved.sequenceId = segment.sequenceId :=
        (map_toInt64_eq_some.mp hof.2).trans hn.symm
      have hapart := h.segments
      rw [← List.take_append_drop count waiting, List.map_append, List.nodup_append] at hapart
      exact hapart.2.2 _ (List.mem_map_of_mem hsaved) _ (List.mem_map_of_mem hsegment) hsame

/-- A label that no record of a saved segment has is renamed. -/
theorem rename (h : Consistent meetingId history rows waiting) {oldLabel newLabel : String}
    {profileId : Option String}
    (hsafe : ∀ record ∈ history, (∃ row ∈ rows, IsRowOf meetingId record row) →
      record.label = oldLabel → newLabel = oldLabel ∧ profileId = record.voiceProfileId)
    (db : Database) (hdb : db.transcripts = rows) :
    Consistent meetingId history
      (renameSpeakerInMeeting db meetingId oldLabel newLabel profileId).transcripts waiting := by
  -- a renamed row keeps its keys
  have hkeys : ∀ row' ∈ (renameSpeakerInMeeting db meetingId oldLabel newLabel profileId).transcripts,
      ∃ row ∈ rows, row'.meetingId = row.meetingId ∧ row'.sequenceId = row.sequenceId ∧
        row' = if row.meetingId = meetingId ∧ row.speaker = some oldLabel then
          { row with speaker := some newLabel, voiceProfileId := profileId } else row := by
    intro row' hrow'
    rw [renameSpeakerInMeeting, hdb] at hrow'
    obtain ⟨row, hrow, rfl⟩ := List.mem_map.mp hrow'
    refine ⟨row, hrow, ?_, ?_, rfl⟩ <;> split <;> rfl
  refine ⟨h.records, h.segments, ?_, ?_, h.carries⟩
  · intro record hrecord row' hrow' hof
    obtain ⟨row, hrow, hmeeting, hsequence, heq⟩ := hkeys row' hrow'
    have hof' : IsRowOf meetingId record row := ⟨hmeeting ▸ hof.1, hsequence ▸ hof.2⟩
    have hsame := h.agrees record hrecord row hrow hof'
    rw [heq]
    split
    · next hguard =>
      have hlabel : record.label = oldLabel := Option.some.inj (hsame.1.symm.trans hguard.2)
      obtain ⟨hnew, hprofile⟩ := hsafe record hrecord ⟨row, hrow, hof'⟩ hlabel
      exact ⟨by rw [hnew, hlabel], hprofile⟩
    · exact hsame
  · intro segment hsegment n hn row' hrow' hof
    obtain ⟨row, hrow, hmeeting, hsequence, -⟩ := hkeys row' hrow'
    exact h.unsaved segment hsegment n hn row hrow ⟨hmeeting ▸ hof.1, hsequence ▸ hof.2⟩

end Consistent

/-! ## Refinements -/

section Refine

variable {d : Diarizer} {rows : List TranscriptRow} {waiting : List TranscriptSegment}
  {refined : List RefinedAssignment}

/-- The statement of an assignment that is marked as changed. -/
theorem mem_refinementUpdates {update : SpeakerUpdate} :
    update ∈ refinementUpdates refined ↔ ∃ a ∈ refined, a.changed = true ∧
      update = ⟨a.sequenceId, a.previousSpeaker, a.speaker, a.voiceProfileId⟩ := by
  simp only [refinementUpdates, List.mem_map, List.mem_filter]
  constructor
  · rintro ⟨a, ⟨ha, hchanged⟩, rfl⟩
    exact ⟨a, ha, hchanged, rfl⟩
  · rintro ⟨a, ha, hchanged, rfl⟩
    exact ⟨a, ⟨ha, hchanged⟩, rfl⟩

theorem nodup_refinementUpdates
    (hdistinct : (refined.map RefinedAssignment.sequenceId).Nodup) :
    ((refinementUpdates refined).map SpeakerUpdate.sequenceId).Nodup := by
  rw [refinementUpdates, List.map_map]
  exact hdistinct.sublist (List.filter_sublist.map _)

/-- A record and its row say the same after a refinement that succeeds. -/
theorem saysSame_refined (hdistinct : (d.history.map EmbeddingRecord.sequenceId).Nodup)
    (hrefined : d.refine = some refined) {record : EmbeddingRecord} (hmem : record ∈ d.history)
    {row : TranscriptRow} (hof : IsRowOf meetingId record row) (hsame : SaysSame record row) :
    SaysSame (Diarizer.applyTo refined record)
      (rowAfter meetingId (refinementUpdates refined) row) := by
  have hnumbers : (refined.map RefinedAssignment.sequenceId).Nodup :=
    Refinement.map_sequenceId_refine hrefined ▸ hdistinct
  obtain ⟨identity, ha, happly⟩ := Diarizer.applyTo_refine hdistinct hrefined hmem
  rw [happly]
  by_cases hchanged : (Refinement.assignment record identity).changed = true
  · -- the statement of this assignment is the only one for the row, and its guard holds
    have hprofile : row.voiceProfileId = none :=
      hsame.2.trans (Refinement.voiceProfileId_of_changed hchanged)
    rw [rowAfter_of_mem (nodup_refinementUpdates hnumbers)
      (mem_refinementUpdates.mpr ⟨_, ha, hchanged, rfl⟩) (by simpa using hof.2), updateSpeaker,
      if_pos ⟨hof.1, by simpa using hof.2, by simpa using hsame.1, hprofile⟩]
    exact ⟨rfl, rfl⟩
  · rw [rowAfter_of_ne, Refinement.refined_of_not_changed (Bool.not_eq_true _ ▸ hchanged)]
    · exact hsame
    · intro update hupdate heq
      obtain ⟨b, hb, hbchanged, rfl⟩ := mem_refinementUpdates.mp hupdate
      have hnumber : record.sequenceId = b.sequenceId :=
        Int64.ofUInt64.inj (Option.some.inj (hof.2.symm.trans heq))
      obtain rfl : b = Refinement.assignment record identity :=
        List.inj_on_of_nodup_map hnumbers hb ha (by simpa using hnumber.symm)
      exact hchanged hbchanged

/-- A record without a guarded row is left, if only records of saved segments change. -/
theorem applyTo_eq_self (h : Consistent meetingId d.history rows waiting)
    (hrefined : d.refine = some refined)
    (hsaved : ∀ record ∈ d.history, ∀ a ∈ refined, a.sequenceId = record.sequenceId →
      a.changed = true → ∃ row ∈ rows, IsRowOf meetingId record row)
    {record : EmbeddingRecord} (hmem : record ∈ d.history)
    (hskipped : ∀ row ∈ rows, ¬Guarded meetingId record row) :
    Diarizer.applyTo refined record = record := by
  obtain ⟨identity, ha, happly⟩ := Diarizer.applyTo_refine h.records hrefined hmem
  rw [happly]
  refine Refinement.refined_of_not_changed (Bool.eq_false_iff.mpr fun hchanged => ?_)
  obtain ⟨row, hrow, hof⟩ := hsaved record hmem _ ha (by simp) hchanged
  obtain ⟨hspeaker, hprofile⟩ := h.agrees record hmem row hrow hof
  exact hskipped row hrow
    ⟨hof, hspeaker, hprofile.trans (Refinement.voiceProfileId_of_changed hchanged)⟩

/-- A refinement that succeeds on saved segments. -/
theorem Consistent.refine (h : Consistent meetingId d.history rows waiting)
    (hrefined : d.refine = some refined)
    (hsaved : ∀ record ∈ d.history, ∀ a ∈ refined, a.sequenceId = record.sequenceId →
      a.changed = true → ∃ row ∈ rows, IsRowOf meetingId record row) :
    Consistent meetingId (d.applyRefinement refined).history
      (rows.map (rowAfter meetingId (refinementUpdates refined))) waiting := by
  refine ⟨?_, h.segments, ?_, ?_, ?_⟩
  · rw [Diarizer.applyRefinement, List.map_map]
    have hnumbers : (EmbeddingRecord.sequenceId ∘ Diarizer.applyTo refined) =
        EmbeddingRecord.sequenceId := by
      funext record
      simp
    rw [hnumbers]
    exact h.records
  · intro record' hrecord' row' hrow' hof
    obtain ⟨record, hrecord, rfl⟩ := List.mem_map.mp hrecord'
    obtain ⟨row, hrow, rfl⟩ := List.mem_map.mp hrow'
    obtain ⟨hmeeting, hsequence⟩ := rowAfter_keys (refinementUpdates refined) row
    have hof' : IsRowOf meetingId record row :=
      ⟨hmeeting ▸ hof.1, by simpa [hsequence] using hof.2⟩
    exact saysSame_refined h.records hrefined hrecord hof' (h.agrees record hrecord row hrow hof')
  · intro segment hsegment n hn row' hrow' hof
    obtain ⟨row, hrow, rfl⟩ := List.mem_map.mp hrow'
    obtain ⟨hmeeting, hsequence⟩ := rowAfter_keys (refinementUpdates refined) row
    exact h.unsaved segment hsegment n hn row hrow ⟨hmeeting ▸ hof.1, hsequence ▸ hof.2⟩
  · intro segment hsegment record' hrecord' heq
    obtain ⟨record, hrecord, rfl⟩ := List.mem_map.mp hrecord'
    rw [Diarizer.sequenceId_applyTo] at heq
    -- a record of a waiting segment has no row
    have hself : Diarizer.applyTo refined record = record :=
      applyTo_eq_self h hrefined hsaved hrecord fun row hrow hguarded =>
        h.unsaved segment hsegment record.sequenceId heq row hrow hguarded.1
    rw [hself]
    exact h.carries segment hsegment record hrecord heq

end Refine

/-! ## Runs -/

/-- A session of which that is true. -/
def IsConsistent (meetingId : String) (s : SpeakerSession) : Prop :=
  Consistent meetingId s.diarizer.history s.db.transcripts s.waiting

variable {s : SpeakerSession}

/-- A refinement of a careful session leaves it, or succeeds on saved segments. -/
theorem refine_cases (hcareful : Careful meetingId s (.refine env)) :
    exec meetingId s (.refine env) = s ∨ ∃ refined, s.diarizer.refine = some refined ∧
      (∀ record ∈ s.diarizer.history, ∀ a ∈ refined, a.sequenceId = record.sequenceId →
        a.changed = true → Saved meetingId s record) ∧
      (exec meetingId s (.refine env)).diarizer = s.diarizer.applyRefinement refined ∧
      (exec meetingId s (.refine env)).db.transcripts =
        s.db.transcripts.map (rowAfter meetingId (refinementUpdates refined)) ∧
      (exec meetingId s (.refine env)).waiting = s.waiting := by
  rcases refineAndPersist_cases with hsame | ⟨refined, refinedDb, hrefined, hne, hupdate, heq⟩
  · exact .inl (by rw [exec, hsame]; rfl)
  · obtain ⟨hrows, hok⟩ := of_updateSpeakersBySequence hne hupdate
    refine .inr ⟨refined, hrefined, hcareful refined hrefined hok, ?_, ?_, ?_⟩ <;> rw [exec, heq]
    · rfl
    · exact hrows

/-- What a careful refinement keeps. -/
theorem IsConsistent.keepsSkipped (h : IsConsistent meetingId s)
    (hcareful : Careful meetingId s (.refine env)) :
    KeepsSkipped meetingId s (exec meetingId s (.refine env)) := by
  rcases refine_cases hcareful with hsame | ⟨refined, hrefined, hsaved, hdiarizer, -⟩
  · rw [hsame]
    exact List.forall₂_same.mpr fun _ _ _ => rfl
  · rw [KeepsSkipped, hdiarizer, Diarizer.applyRefinement, List.forall₂_map_right_iff,
      List.forall₂_same]
    exact fun record hmem hskipped => applyTo_eq_self h hrefined hsaved hmem hskipped

/-- A segment is attributed to what its new record says, if it has one. -/
theorem attributed_cases (d : Diarizer) (sequenceId : UInt64)
    (samples embedding : Option (List Float32)) (forcedCluster : Option ℕ)
    (defaultSpeaker : Option String) :
    let attribution := attributed d sequenceId samples embedding forcedCluster defaultSpeaker
    ∃ added, attribution.2.history = d.history ++ added ∧
      (added = [] ∨ ∃ record, added = [record] ∧ record.sequenceId = sequenceId ∧
        attribution.1.1 = some record.label ∧ attribution.1.2 = record.voiceProfileId) := by
  simp only [attributed]
  split
  · split
    · next result d' hprocess =>
      obtain ⟨embedding', hhistory⟩ := Diarizer.of_processInner hprocess
      exact ⟨_, hhistory, .inr ⟨_, rfl, rfl, rfl, rfl⟩⟩
    · exact ⟨[], (List.append_nil _).symm, .inl rfl⟩
  · exact ⟨[], (List.append_nil _).symm, .inl rfl⟩

/-- A rename that reaches the rows, or does not. -/
theorem IsConsistent.of_rename (h : IsConsistent meetingId s) {oldLabel newLabel : String}
    {profileId : Option String} (hsafe : RenameSafe meetingId s oldLabel newLabel profileId)
    (hrows : db.transcripts = (renameSpeakerInMeeting s.db meetingId oldLabel newLabel
      profileId).transcripts) : IsConsistent meetingId { s with db := db } := by
  rw [IsConsistent, hrows]
  exact Consistent.rename h hsafe s.db rfl

theorem IsConsistent.of_same (h : IsConsistent meetingId s)
    (hrows : db.transcripts = s.db.transcripts) : IsConsistent meetingId { s with db := db } := by
  rw [IsConsistent, hrows]
  exact h

/-- What a careful step keeps. -/
theorem IsConsistent.exec (h : IsConsistent meetingId s) {op : Op}
    (hcareful : Careful meetingId s op) : IsConsistent meetingId (exec meetingId s op) := by
  cases op with
  | process segment sequenceId samples embedding forcedCluster defaultSpeaker =>
    obtain ⟨hrecords, hwaiting, hrows⟩ := hcareful
    obtain ⟨added, hhistory, hadded⟩ := attributed_cases s.diarizer sequenceId samples embedding
      forcedCluster defaultSpeaker
    have hprocessed : Consistent meetingId (s.diarizer.history ++ added) s.db.transcripts
        (s.waiting ++ [published segment sequenceId _]) :=
      Consistent.process h hrecords hwaiting hrows rfl hadded
    rw [← hhistory] at hprocessed
    exact hprocessed
  | save env count =>
    rw [SpeakerSession.exec]
    split
    · next hsave =>
      refine Consistent.save h count fun row hrow => ?_
      rcases mem_upsertTranscriptSegments hsave hrow with hold | ⟨item, hitem, id, now, rfl⟩
      · exact .inl hold
      · obtain ⟨segment, hsegment, rfl⟩ := List.mem_map.mp hitem
        exact .inr ⟨segment, hsegment, id, now, rfl⟩
    · exact Consistent.drop h count
  | refine env =>
    rcases refine_cases hcareful with hsame | ⟨refined, hrefined, hsaved, hdiarizer, hrows, hwaiting⟩
    · rwa [hsame]
    · rw [IsConsistent, hdiarizer, hrows, hwaiting]
      exact Consistent.refine h hrefined hsaved
  | promote env oldLabel trimmedName normalisedEmail =>
    rcases transcripts_promote with hsame | ⟨profileId, hrows, hrename, hcreate⟩
    · exact h.of_same hsame
    · refine h.of_rename (fun record hmem hsaved hlabel => ?_) hrows
      -- a record of that label is an embedding, so that the profile was created
      have hreached : reachableEmbeddings (some s.diarizer) oldLabel ≠ [] :=
        List.ne_nil_of_mem (List.mem_map_of_mem (f := EmbeddingRecord.embedding)
          (List.mem_filter.mpr ⟨hmem, beq_iff_eq.mpr hlabel⟩))
      exact absurd hsaved (hcareful (hcreate hreached) hrename record hmem hlabel)
  | mergeCluster env oldLabel profileId =>
    rcases transcripts_mergeCluster with hsame | ⟨profile, hprofile, hload, hrename, hrows⟩
    · exact h.of_same hsame
    · exact h.of_rename (hcareful hload hrename profile hprofile) hrows
  | rename env oldLabel newLabel profileId =>
    rw [SpeakerSession.exec, SpeakerService.rename]
    by_cases hok : env.ok 0 = true
    · simp only [hok, Bool.not_true, Bool.false_eq_true, if_false]
      exact h.of_rename (hcareful hok) rfl
    · simpa [hok] using h

theorem isConsistent_start (meetingId : String)
    (embedder : List Float32 → Except String (List Float32))
    (profileMatcher : Option SpeakerProfileMatcher) (db : Database) :
    IsConsistent meetingId (start embedder profileMatcher db) :=
  ⟨List.nodup_nil, List.nodup_nil, fun _ hmem => absurd hmem List.not_mem_nil,
    fun _ hmem => absurd hmem List.not_mem_nil, fun _ hmem => absurd hmem List.not_mem_nil⟩

theorem isConsistent_of_reaches {t : SpeakerSession} (hstart : IsConsistent meetingId s)
    (h : Reaches meetingId (Careful meetingId) s t) : IsConsistent meetingId t := by
  induction h with
  | refl => exact hstart
  | step op _ hcareful ih => exact ih.exec hcareful

/-- **Agreement.** In every state that a careful session of a meeting reaches, each record whose row
exists says what the row says, and a refinement leaves the records whose assignments the guard of
the database skips. -/
theorem agrees_of_reaches {embedder : List Float32 → Except String (List Float32)}
    {profileMatcher : Option SpeakerProfileMatcher}
    (h : Reaches meetingId (Careful meetingId) (start embedder profileMatcher db) s) :
    InStep meetingId (Careful meetingId) s := by
  have hconsistent : IsConsistent meetingId s :=
    isConsistent_of_reaches (isConsistent_start meetingId embedder profileMatcher db) h
  exact ⟨hconsistent.agrees, fun env hcareful => hconsistent.keepsSkipped hcareful⟩

/-! ### One segment -/

/-- What the segment says. -/
def greeting : TranscriptSegment :=
  ⟨"seg_0", "Hello", some "2026-01-01T10:00:00+00:00", none, none, none, none, none, none, none, none,
    none⟩

/-- A speaker model that is not asked. -/
def silent : List Float32 → Except String (List Float32) := fun _ => .error "Cannot embed empty audio"

/-- One segment was diarized, with an embedding of its turn. -/
def diarized : SpeakerSession :=
  exec "meeting-1" (start silent none oneMeeting)
    (.process greeting 0 none (some [1]) none (some "Speaker"))

/-- It was saved. -/
def saved : SpeakerSession := exec "meeting-1" diarized (.save calm 1)

theorem history_saved :
    saved.diarizer.history = [⟨0, EmbeddingMath.l2Normalize [1], none, "Speaker 1"⟩] := rfl

theorem transcripts_saved : saved.db.transcripts =
    [segmentRow "transcript-0" "meeting-1" "" (published greeting 0 (some "Speaker 1", none))] := rfl

theorem reaches_saved :
    Reaches "meeting-1" (Careful "meeting-1") (start silent none oneMeeting) saved := by
  refine .step _ (.step _ .refl ⟨?_, ?_, ?_⟩) trivial
  · exact fun _ hmem => absurd hmem List.not_mem_nil
  · exact fun _ hmem => absurd hmem List.not_mem_nil
  · exact fun _ hmem => absurd hmem List.not_mem_nil

theorem agrees_refined :
    InStep "meeting-1" (Careful "meeting-1") (exec "meeting-1" saved (.refine calm)) := by
  refine agrees_of_reaches (.step _ reaches_saved fun _ _ _ record hrecord _ _ _ _ => ?_)
  rw [history_saved] at hrecord
  rw [List.mem_singleton.mp hrecord]
  refine ⟨_, transcripts_saved ▸ List.mem_singleton_self _, rfl, rfl⟩

/-- The label was promoted to a profile. -/
def promoted : SpeakerSession :=
  exec "meeting-1" saved (.promote calm "Speaker 1" "Alice" none)

theorem transcripts_promoted : promoted.db.transcripts =
    (renameSpeakerInMeeting saved.db "meeting-1" "Speaker 1" "Alice"
      (some "profile-0")).transcripts := by
  have hreached : reachableEmbeddings (some saved.diarizer) "Speaker 1" =
      [EmbeddingMath.l2Normalize [1]] := rfl
  obtain ⟨centroid, hcentroid⟩ := Option.isSome_iff_exists.mp
    (EmbeddingMath.isSome_averageAndNormalize_singleton (EmbeddingMath.l2Normalize [1]))
  have hprofile : ∃ db, promotedProfile calm saved.db "Alice" none
      [EmbeddingMath.l2Normalize [1]] = .ok (some "profile-0", db) ∧
        db.transcripts = saved.db.transcripts := by
    rw [promotedProfile, hcentroid]
    exact ⟨_, rfl, rfl⟩
  obtain ⟨db, hprofile, hdb⟩ := hprofile
  rw [promoted, exec, promoteSpeakerToProfileCore, hreached, hprofile]
  simp [SpeakerService.rename, calm, renameSpeakerInMeeting, hdb]

/-- The segment of a promoted label keeps its old label in the history. -/
theorem not_agrees_promoted :
    ¬∀ (meetingId : String) (embedder : List Float32 → Except String (List Float32))
      (profileMatcher : Option SpeakerProfileMatcher) (db : Database) (s : SpeakerSession),
      Reaches meetingId (fun _ _ => True) (start embedder profileMatcher db) s →
        InStep meetingId (fun _ _ => True) s := by
  intro h
  obtain ⟨hagrees, -⟩ := h "meeting-1" silent none oneMeeting promoted
    (.step _ (.step _ (.step _ .refl trivial) trivial) trivial)
  have hrecord : ⟨0, EmbeddingMath.l2Normalize [1], none, "Speaker 1"⟩ ∈ promoted.diarizer.history :=
    history_saved ▸ List.mem_singleton_self _
  have hrow : { segmentRow "transcript-0" "meeting-1" "" (published greeting 0
      (some "Speaker 1", none)) with speaker := some "Alice", voiceProfileId := some "profile-0" } ∈
        promoted.db.transcripts := by
    rw [transcripts_promoted, renameSpeakerInMeeting, transcripts_saved]
    exact List.mem_singleton_self _
  obtain ⟨hspeaker, -⟩ := hagrees _ hrecord _ hrow ⟨rfl, rfl⟩
  exact absurd hspeaker (by decide)

end SpeakerSession

end MeetilyLocal
