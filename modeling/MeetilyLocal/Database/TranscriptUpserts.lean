import MeetilyLocal.Audio.TranscriptViews
import MeetilyLocal.Database.Transcripts

/-!
# The rows that upserts leave

`upsert_transcript_segments` is keyed by meeting and sequence number. So the rows of a meeting that
has got its segments by upserts only are those that a journal of the same segments would be replayed
to: one for the last version of each (`HoldsLast`). An upsert keeps that, if what it stores has a
sequence number, and so does a transaction of upserts.
-/

namespace MeetilyLocal

namespace TranscriptsRepository

open TranscriptJournal

/-- The row was stored for that segment of the meeting. -/
def IsRowOf (meetingId : String) (segment : TranscriptSegment) (row : TranscriptRow) : Prop :=
  ∃ now, row = segmentRow row.id meetingId now segment

/-- The rows of the meeting are those of the last versions of the segments. -/
structure HoldsLast (meetingId : String) (segments : List TranscriptSegment) (db : Database) :
    Prop where
  /-- there is no other row -/
  sound : ∀ row ∈ db.transcripts, row.meetingId = meetingId →
    ∃ last ∈ lastWrites segments, IsRowOf meetingId last row
  /-- each of them has a row -/
  complete : ∀ last ∈ lastWrites segments, ∃ row ∈ db.transcripts, IsRowOf meetingId last row

/-- A meeting without rows has got no segments. -/
theorem holdsLast_nil {meetingId : String} {db : Database}
    (h : ∀ row ∈ db.transcripts, row.meetingId ≠ meetingId) : HoldsLast meetingId [] db :=
  ⟨fun row hrow hmeeting => absurd hmeeting (h row hrow), fun _ => nofun⟩

/-- The unique index on meeting and sequence number. -/
def Conflicts (row other : TranscriptRow) : Prop :=
  other.meetingId = row.meetingId ∧ other.sequenceId = row.sequenceId

instance (row : TranscriptRow) : DecidablePred (Conflicts row) :=
  fun other => inferInstanceAs (Decidable (other.meetingId = row.meetingId ∧ _ = row.sequenceId))

variable {meetingId id now : String} {segment other : TranscriptSegment} {row row' : TranscriptRow}
  {db db' : Database}

theorem decide_conflicts (hnumber : row.sequenceId ≠ none) (old : TranscriptRow) :
    (row.sequenceId.isSome && old.meetingId == row.meetingId && old.sequenceId == row.sequenceId) =
      decide (Conflicts row old) := by
  rw [Option.isSome_iff_ne_none.mpr hnumber, Bool.true_and, Bool.eq_iff_iff, Bool.and_eq_true,
    beq_iff_eq, beq_iff_eq, decide_eq_true_iff, Conflicts]

/-- An upsert replaces the rows in conflict, or adds its row if there is none. -/
theorem upsertRow_cases (hnumber : row.sequenceId ≠ none) (h : upsertRow db row = .ok db') :
    (∃ old ∈ db.transcripts, Conflicts row old ∧ db'.transcripts = db.transcripts.map
      fun old => if Conflicts row old then { row with id := old.id } else old) ∨
    (∀ old ∈ db.transcripts, ¬Conflicts row old) ∧ db'.transcripts = db.transcripts ++ [row] := by
  unfold upsertRow at h
  simp only [decide_conflicts hnumber, decide_eq_true_eq] at h
  split at h
  · next hany =>
    obtain ⟨old, hold, hconflict⟩ := List.any_eq_true.mp hany
    obtain rfl := Except.ok.inj h
    exact Or.inl ⟨old, hold, of_decide_eq_true hconflict, rfl⟩
  · next hany =>
    unfold insertRow at h
    split at h
    · cases h
    split at h
    · cases h
    split at h
    · cases h
    obtain rfl := Except.ok.inj h
    refine Or.inr ⟨fun old hold hconflict => hany ?_, rfl⟩
    exact List.any_eq_true.mpr ⟨old, hold, decide_eq_true hconflict⟩

/-- A version with a sequence number is one of a segment if they have the same. -/
theorem sameKey_iff (hnumber : segment.sequenceId ≠ none) :
    SameKey other segment ↔ other.sequenceId = segment.sequenceId := by
  constructor
  · exact And.left
  · intro heq
    exact ⟨heq, fun hnone => absurd (heq.symm.trans hnone) hnumber⟩

theorem IsRowOf.meetingId_eq (h : IsRowOf meetingId segment row) : row.meetingId = meetingId := by
  obtain ⟨now, hrow⟩ := h
  rw [hrow, segmentRow]

theorem IsRowOf.sequenceId_eq (h : IsRowOf meetingId segment row) :
    row.sequenceId = segment.sequenceId.map UInt64.toInt64 := by
  obtain ⟨now, hrow⟩ := h
  rw [hrow, segmentRow]

/-- The rows in conflict with that of a segment are those of its other versions. -/
theorem conflicts_iff (hnumber : segment.sequenceId ≠ none) (h : IsRowOf meetingId other row) :
    Conflicts (segmentRow id meetingId now segment) row ↔ SameKey other segment := by
  obtain ⟨n, hn⟩ := Option.ne_none_iff_exists'.mp hnumber
  rw [sameKey_iff hnumber, Conflicts, h.meetingId_eq, h.sequenceId_eq, hn, ← map_toInt64_eq_some]
  simp only [segmentRow, hn, Option.map_some, true_and]

variable {segments : List TranscriptSegment} {last : TranscriptSegment}

/-- A row that is not in conflict is that of another segment, whose last version stays what it was. -/
theorem HoldsLast.stays (h : HoldsLast meetingId segments db) (hnumber : segment.sequenceId ≠ none)
    (hrow : row ∈ db.transcripts) (hmeeting : row.meetingId = meetingId)
    (hconflict : ¬Conflicts (segmentRow id meetingId now segment) row) :
    ∃ last ∈ lastWrites (segments ++ [segment]), IsRowOf meetingId last row := by
  obtain ⟨last, hlast, hrowof⟩ := h.sound row hrow hmeeting
  refine ⟨last, ?_, hrowof⟩
  rw [lastWrites_concat]
  refine List.mem_append_left _ (List.mem_filter.mpr ⟨hlast, decide_eq_true fun hsame => ?_⟩)
  exact hconflict ((conflicts_iff hnumber hrowof).mpr hsame)

/-- What was a last version before has a row that is not in conflict. -/
theorem HoldsLast.eq_or_stored (h : HoldsLast meetingId segments db)
    (hnumber : segment.sequenceId ≠ none) (hlast : last ∈ lastWrites (segments ++ [segment]))
    (id now : String) : last = segment ∨ ∃ row ∈ db.transcripts, IsRowOf meetingId last row ∧
      ¬Conflicts (segmentRow id meetingId now segment) row := by
  rw [lastWrites_concat] at hlast
  rcases List.mem_append.mp hlast with hbefore | hnew
  · obtain ⟨hbefore, hdiffers⟩ := List.mem_filter.mp hbefore
    obtain ⟨row, hrow, hrowof⟩ := h.complete last hbefore
    refine Or.inr ⟨row, hrow, hrowof, fun hconflict => ?_⟩
    exact of_decide_eq_true hdiffers ((conflicts_iff hnumber hrowof).mp hconflict)
  · exact Or.inl (List.mem_singleton.mp hnew)

/-- The rows of a meeting after an upsert. -/
theorem HoldsLast.upsertRow (hholds : HoldsLast meetingId segments db)
    (hnumber : segment.sequenceId ≠ none)
    (h : upsertRow db (segmentRow id meetingId now segment) = .ok db') :
    HoldsLast meetingId (segments ++ [segment]) db' := by
  have hself : segment ∈ lastWrites (segments ++ [segment]) := by simp [lastWrites_concat]
  have hrownumber : (segmentRow id meetingId now segment).sequenceId ≠ none := by
    simpa [segmentRow] using hnumber
  rcases upsertRow_cases hrownumber h with ⟨old, hold, hconflict, hrows⟩ | ⟨hnone, hrows⟩
  · -- the rows in conflict are replaced
    constructor
    · intro row' hrow' hmeeting
      rw [hrows] at hrow'
      obtain ⟨row, hrow, rfl⟩ := List.mem_map.mp hrow'
      by_cases hreplaced : Conflicts (segmentRow id meetingId now segment) row
      · rw [if_pos hreplaced]
        exact ⟨segment, hself, now, rfl⟩
      · rw [if_neg hreplaced] at hmeeting ⊢
        exact hholds.stays hnumber hrow hmeeting hreplaced
    · intro last hlast
      rw [hrows]
      rcases hholds.eq_or_stored hnumber hlast id now with rfl | ⟨row, hrow, hrowof, hstays⟩
      · exact ⟨_, List.mem_map.mpr ⟨old, hold, rfl⟩, by rw [if_pos hconflict]; exact ⟨now, rfl⟩⟩
      · exact ⟨row, List.mem_map.mpr ⟨row, hrow, if_neg hstays⟩, hrowof⟩
  · -- its row is added
    constructor
    · intro row hrow hmeeting
      rw [hrows] at hrow
      rcases List.mem_append.mp hrow with hbefore | hnew
      · exact hholds.stays hnumber hbefore hmeeting (hnone row hbefore)
      · obtain rfl := List.mem_singleton.mp hnew
        exact ⟨segment, hself, now, rfl⟩
    · intro last hlast
      rw [hrows]
      rcases hholds.eq_or_stored hnumber hlast id now with rfl | ⟨row, hrow, hrowof, -⟩
      · exact ⟨_, List.mem_append_right _ List.mem_cons_self, now, rfl⟩
      · exact ⟨row, List.mem_append_left _ hrow, hrowof⟩

/-- They are segments of the meeting, with sequence numbers. -/
def AreOf (meetingId : String) (items : List (String × TranscriptSegment)) : Prop :=
  ∀ item ∈ items, item.1 = meetingId ∧ item.2.sequenceId ≠ none

/-- The rows of a meeting after some upserts. -/
theorem HoldsLast.upsertAll {env : SqlEnv} {k : ℕ} {items : List (String × TranscriptSegment)}
    (hholds : HoldsLast meetingId segments db) (hitems : AreOf meetingId items)
    (h : upsertAll env k db items = .ok db') :
    HoldsLast meetingId (segments ++ items.map Prod.snd) db' := by
  induction items generalizing k db segments with
  | nil =>
    obtain rfl := Except.ok.inj h
    simpa using hholds
  | cons item items ih =>
    obtain ⟨owner, segment⟩ := item
    obtain ⟨⟨rfl, hnumber⟩, hrest⟩ := List.forall_mem_cons.mp hitems
    unfold TranscriptsRepository.upsertAll at h
    split at h
    · simp only at h
      split at h
      · next db₁ hrow =>
        have hlater := ih (hholds.upsertRow hnumber hrow) hrest h
        rwa [List.append_assoc] at hlater
      · cases h
    · cases h

/-- The rows of a meeting after a transaction. -/
theorem HoldsLast.upsertTranscriptSegments {env : SqlEnv} {count : ℕ}
    {items : List (String × TranscriptSegment)} (hholds : HoldsLast meetingId segments db)
    (hitems : AreOf meetingId items)
    (h : upsertTranscriptSegments env db items = .ok (count, db')) :
    HoldsLast meetingId (segments ++ items.map Prod.snd) db' := by
  unfold TranscriptsRepository.upsertTranscriptSegments at h
  split at h
  · next hempty =>
    obtain ⟨-, rfl⟩ := Prod.mk.inj (Except.ok.inj h)
    rw [List.isEmpty_iff.mp hempty]
    simpa using hholds
  · split at h
    · next db₁ hall =>
      split at h
      · obtain ⟨-, rfl⟩ := Prod.mk.inj (Except.ok.inj h)
        exact hholds.upsertAll hitems hall
      · cases h
    · cases h

end TranscriptsRepository

end MeetilyLocal
