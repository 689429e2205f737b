import MeetilyLocal.Audio.TranscriptJournalReplay
import MeetilyLocal.Database.Transcripts
import MeetilyLocal.Library.OrderBy
import Mathlib.Data.Int.ConditionallyCompleteOrder
import Mathlib.Data.Prod.Lex
import Mathlib.Data.String.Basic
import Mathlib.Order.WithBot

/-!
# Readers of transcripts

The three queries that list the transcript of a meeting: `get_meeting` and
`get_meeting_transcripts_paginated` of `database/repositories/meeting.rs`, and `get_transcript` of
the MCP server. The first has no `ORDER BY`, the second sorts by the start time only, the third by
the sequence number first.

`sort_segments_chronologically` sorts by the start time and then by the sequence number. A query
lists the rows in this order, whatever SQLite does with rows that its `ORDER BY` does not tell
apart, only if the rows are such that it makes no difference (`agrees_iff`).
-/

namespace MeetilyLocal

open TranscriptJournal

/-- The segment that a row is of. -/
def TranscriptRow.segment (row : TranscriptRow) : TranscriptSegment where
  id := row.id
  text := row.transcript
  timestamp := some row.timestamp
  audioStartTime := row.audioStartTime
  audioEndTime := row.audioEndTime
  duration := row.duration
  displayTime := none
  confidence := row.confidence
  sequenceId := row.sequenceId.map Int64.toUInt64
  speaker := row.speaker
  voiceProfileId := row.voiceProfileId
  source := row.source

namespace MeetingsRepository

/-- `WHERE meeting_id = ?` -/
def transcriptsOf (db : Database) (meetingId : String) : List TranscriptRow :=
  db.transcripts.filter (·.meetingId = meetingId)

/-! ## `get_meeting` -/

/-- What the page of a meeting shows of a row. -/
structure MeetingTranscript : Type where
  /-- primary key -/
  id : String
  /-- what was said -/
  text : String
  /-- RFC3339 timestamp -/
  timestamp : String
  /-- seconds into the recording at which it starts -/
  audioStartTime : Option Float
  /-- seconds into the recording at which it ends -/
  audioEndTime : Option Float
  /-- seconds between them -/
  duration : Option Float
  /-- speaker label -/
  speaker : Option String
  /-- the voice profile of the speaker -/
  voiceProfileId : Option String
  /-- audio stream -/
  source : Option String
  /-- Whisper confidence score -/
  confidence : Option Float32

/-- A row of `meetings`, without what only the recovery reads. -/
structure MeetingModel : Type where
  /-- primary key -/
  id : String
  /-- the title -/
  title : String
  /-- when it was created, RFC3339 -/
  createdAt : String
  /-- when it was last changed -/
  updatedAt : String

/-- A meeting with its transcript. -/
structure MeetingDetails : Type where
  /-- primary key -/
  id : String
  /-- the title -/
  title : String
  /-- when it was created, RFC3339 -/
  createdAt : String
  /-- when it was last changed -/
  updatedAt : String
  /-- the transcript -/
  transcripts : List MeetingTranscript

/-- The rows that `get_meeting` reads: there is no `ORDER BY`. -/
def meetingRows (order : Arrangement TranscriptRow) (db : Database) (meetingId : String) :
    List TranscriptRow :=
  order.arrange (transcriptsOf db meetingId)

/-- What the page is given of a row. -/
def meetingTranscript (row : TranscriptRow) : MeetingTranscript where
  id := row.id
  text := row.transcript
  timestamp := row.timestamp
  audioStartTime := row.audioStartTime
  audioEndTime := row.audioEndTime
  duration := row.duration
  speaker := row.speaker
  voiceProfileId := row.voiceProfileId
  source := row.source
  confidence := row.confidence

/-- `get_meeting` -/
def getMeeting (env : SqlEnv) (order : Arrangement TranscriptRow)
    (meetings : String → Option MeetingModel) (db : Database) (meetingId : String) :
    Except String MeetingDetails :=
  if (trim meetingId.toList).isEmpty then .error "meeting_id cannot be empty"
  else if !env.ok 0 || !env.ok 1 then .error TranscriptsRepository.sqlError
  else
    match meetings meetingId with
    | none => .error "no rows returned by a query that expected to return at least one row"
    | some meeting =>
      if env.ok 2 then
        .ok ⟨meeting.id, meeting.title, meeting.createdAt, meeting.updatedAt,
          (meetingRows order db meetingId).map meetingTranscript⟩
      else .error TranscriptsRepository.sqlError

/-! ## `get_meeting_transcripts_paginated` -/

/-- `audio_start_time ASC`: a row without one comes first. -/
def startKey (row : TranscriptRow) : WithBot Float64.Rank :=
  row.audioStartTime.map Float64.rank

/-- The rows of a page: `ORDER BY audio_start_time ASC LIMIT ? OFFSET ?`, where a negative limit is
none. -/
def pageRows (order : Arrangement TranscriptRow) (db : Database) (meetingId : String)
    (limit offset : ℤ) : List TranscriptRow :=
  let rows := (orderBy startKey order (transcriptsOf db meetingId)).drop offset.toNat
  if limit < 0 then rows else rows.take limit.toNat

/-- `get_meeting_transcripts_paginated`: a page, and the number of all rows. -/
def getMeetingTranscriptsPaginated (env : SqlEnv) (order : Arrangement TranscriptRow)
    (db : Database) (meetingId : String) (limit offset : ℤ) :
    Except String (List TranscriptRow × ℕ) :=
  if (trim meetingId.toList).isEmpty then .error "meeting_id cannot be empty"
  else if env.ok 0 && env.ok 1 then
    .ok (pageRows order db meetingId limit offset, (transcriptsOf db meetingId).length)
  else .error TranscriptsRepository.sqlError

end MeetingsRepository

/-! ## `get_transcript` -/

namespace Mcp

/-- What an agent reads of a segment. -/
structure TranscriptSegment : Type where
  /-- what was said -/
  text : String
  /-- resolved speaker name -/
  speakerLabel : String
  /-- raw source label as stored -/
  speaker : Option String
  /-- `HH:MM:SS` from the start of the recording -/
  start : Option String
  /-- seconds into the recording at which it starts -/
  audioStartTime : Option Float
  /-- seconds into the recording at which it ends -/
  audioEndTime : Option Float

/-- Human label for the speaker of a segment. -/
def speakerLabel (speaker voiceProfileName : Option String) : String :=
  match voiceProfileName.filter fun name => !(trim name.toList).isEmpty with
  | some name => name
  | none =>
    match (speaker.map fun s => String.ofList (trim s.toList)).filter fun s => !s.isEmpty with
    | some "mic" => "You (microphone)"
    | some "system" => "Others (system audio)"
    | some other => other
    | none => "Unknown"

/-- `{:02}` -/
def twoDigits (n : ℕ) : String := if n < 10 then "0" ++ toString n else toString n

/-- Format seconds from the start of the recording as `HH:MM:SS`. -/
def formatOffset (seconds : Option Float) : Option String :=
  seconds.bind fun s =>
    if !s.isFinite || s < 0 then none
    else
      let total := s.toUInt64.toNat
      some (twoDigits (total / 3600) ++ ":" ++ twoDigits (total % 3600 / 60) ++ ":" ++
        twoDigits (total % 60))

/-- `ORDER BY sequence_id IS NULL, sequence_id, audio_start_time IS NULL, audio_start_time,
timestamp` -/
def transcriptKey (row : TranscriptRow) : WithTop ℤ ×ₗ WithTop Float64.Rank ×ₗ String :=
  toLex (row.sequenceId.map Int64.toInt,
    toLex (row.audioStartTime.map Float64.rank, row.timestamp))

/-- The rows that `get_transcript` reads. -/
def transcriptRows (order : Arrangement TranscriptRow) (db : Database) (meetingId : String) :
    List TranscriptRow :=
  orderBy transcriptKey order (MeetingsRepository.transcriptsOf db meetingId)

/-- What an agent is given of a row. -/
def transcriptSegment (db : Database) (row : TranscriptRow) : TranscriptSegment where
  text := row.transcript
  speakerLabel := speakerLabel row.speaker
    (row.voiceProfileId.bind fun id => (db.voiceProfiles.find? (·.id = id)).map (·.name))
  speaker := row.speaker
  start := formatOffset row.audioStartTime
  audioStartTime := row.audioStartTime
  audioEndTime := row.audioEndTime

/-- `get_transcript` -/
def getTranscript (env : SqlEnv) (order : Arrangement TranscriptRow) (db : Database)
    (meetingId : String) : Except String (List TranscriptSegment) :=
  if env.ok 0 then .ok ((transcriptRows order db meetingId).map (transcriptSegment db))
  else .error TranscriptsRepository.sqlError

end Mcp

open MeetingsRepository

/-! ## One order -/

/-- Rows are listed in the order that `sort_segments_chronologically` gives. -/
def InOrder (rows listed : List TranscriptRow) : Prop :=
  listed.map TranscriptRow.segment = sortSegmentsChronologically (rows.map TranscriptRow.segment)

/-- A reader of the transcript of a meeting. -/
inductive TranscriptReader : Type where
  /-- `get_meeting` -/
  | meeting : TranscriptReader
  /-- `get_meeting_transcripts_paginated`, by the size of its pages -/
  | pages : ℤ → TranscriptReader
  /-- `get_transcript` of the MCP server -/
  | agent : TranscriptReader

/-- All pages of a size, each read with a query of its own. -/
def allPages (orders : ℕ → Arrangement TranscriptRow) (db : Database) (meetingId : String)
    (limit : ℤ) : List TranscriptRow :=
  let size := limit.toNat
  (List.range (((transcriptsOf db meetingId).length + size - 1) / size)).flatMap fun k =>
    pageRows (orders k) db meetingId limit (k * size : ℕ)

/-- Whatever order SQLite chooses for rows that a query does not tell apart, a reader lists each row
once, in the order of `sort_segments_chronologically`. -/
def TranscriptReader.Agrees (r : TranscriptReader) (db : Database) (meetingId : String) : Prop :=
  let rows := transcriptsOf db meetingId
  match r with
  | meeting => ∀ order, InOrder rows (meetingRows order db meetingId)
  | pages limit => ∀ orders,
      (allPages orders db meetingId limit).Perm rows ∧
        InOrder rows (allPages orders db meetingId limit)
  | agent => ∀ order, InOrder rows (Mcp.transcriptRows order db meetingId)

/-- The rows that make no difference to a reader. -/
def TranscriptReader.Untroubled (r : TranscriptReader) (rows : List TranscriptRow) : Prop :=
  match r with
  | meeting => rows.length ≤ 1
  | pages _ => rows.Pairwise fun a b => startKey a ≠ startKey b
  | agent => ∀ a ∈ rows, ∀ b ∈ rows, ∀ x ∈ a.sequenceId, ∀ y ∈ b.sequenceId, x < y →
      compareSegments a.segment b.segment = .lt

/-- Every row has a sequence number, which no other has, and a start time. -/
structure Sequenced (rows : List TranscriptRow) : Prop where
  /-- a sequence number -/
  sequence : ∀ row ∈ rows, row.sequenceId.isSome
  /-- the index on the meeting and the sequence number is unique -/
  unique : (rows.map (·.sequenceId)).Nodup
  /-- a start time; NaN is not stored -/
  start : ∀ row ∈ rows, ∃ t, row.audioStartTime = some t ∧ t.isNaN = false

/-! ## The chronological order of rows -/

/-- What rows are sorted by. -/
def segmentKey (row : TranscriptRow) : Float64.Rank ×ₗ ℕ := sortRank row.segment

/-- Rows in chronological order. -/
def chronologicalRows (rows : List TranscriptRow) : List TranscriptRow :=
  orderBy segmentKey (.stored _) rows

section Order

variable {rows listed : List TranscriptRow} {a b : TranscriptRow} {meetingId : String}

theorem toUInt64_injective : Function.Injective Int64.toUInt64 :=
  Function.LeftInverse.injective Int64.toInt64_toUInt64

theorem Sequenced.isNaN_sortTime (h : Sequenced rows) (ha : a ∈ rows) :
    (sortTime a.segment).isNaN = false := by
  obtain ⟨t, ht, hnan⟩ := h.start a ha
  simpa [sortTime, TranscriptRow.segment, ht] using hnan

theorem Sequenced.eq_of_sequence (h : Sequenced rows) (ha : a ∈ rows) (hb : b ∈ rows)
    (hab : a.sequenceId = b.sequenceId) : a = b :=
  List.inj_on_of_nodup_map h.unique ha hb hab

theorem Sequenced.nodup (h : Sequenced rows) : rows.Nodup := h.unique.of_map

/-- Two rows do not compare equal. -/
theorem Sequenced.eq_of_segmentKey (h : Sequenced rows) (ha : a ∈ rows) (hb : b ∈ rows)
    (hab : segmentKey a = segmentKey b) : a = b := by
  apply h.eq_of_sequence ha hb
  obtain ⟨x, hx⟩ := Option.isSome_iff_exists.mp (h.sequence a ha)
  obtain ⟨y, hy⟩ := Option.isSome_iff_exists.mp (h.sequence b hb)
  have hsequence : sortSequence a.segment = sortSequence b.segment :=
    congrArg (fun key => (ofLex key).2) hab
  have hxy : x.toUInt64.toNat = y.toUInt64.toNat := by
    simpa [sortSequence, TranscriptRow.segment, hx, hy] using hsequence
  rw [hx, hy]
  exact congrArg some (toUInt64_injective (UInt64.toNat_inj.mp hxy))

/-- Sorting the segments of rows sorts the rows. -/
theorem map_segment_chronologicalRows (h : Sequenced rows) :
    (chronologicalRows rows).map TranscriptRow.segment =
      sortSegmentsChronologically (rows.map TranscriptRow.segment) := by
  rw [sortSegmentsChronologically_eq]
  · exact List.map_mergeSort fun _ _ _ _ => rfl
  · intro segment hsegment
    obtain ⟨row, hrow, rfl⟩ := List.mem_map.mp hsegment
    exact h.isNaN_sortTime hrow

/-- A row of a meeting is known by its segment. -/
theorem map_segment_inj {rows' : List TranscriptRow} (h : ∀ row ∈ rows, row.meetingId = meetingId)
    (h' : ∀ row ∈ rows', row.meetingId = meetingId)
    (hmap : rows.map TranscriptRow.segment = rows'.map TranscriptRow.segment) : rows = rows' := by
  induction rows generalizing rows' with
  | nil => exact (List.map_eq_nil_iff.mp hmap.symm).symm
  | cons a rows ih =>
    obtain ⟨b, rows', rfl⟩ := List.exists_cons_of_ne_nil
      (show rows' ≠ [] by
        rintro rfl
        cases hmap)
    obtain ⟨hhead, htail⟩ := List.cons.inj hmap
    have hab : a = b := by
      have hmeeting := (h a (by simp)).trans (h' b (by simp)).symm
      obtain ⟨_, _, _, _, _, _, _, _, _, sequence, _, _⟩ := a
      obtain ⟨_, _, _, _, _, _, _, _, _, sequence', _, _⟩ := b
      have hsequence : sequence = sequence' := by
        have hmapped := congrArg TranscriptSegment.sequenceId hhead
        exact Option.map_injective toUInt64_injective hmapped
      simp only [TranscriptRow.segment, TranscriptSegment.mk.injEq] at hhead
      simp_all
    rw [hab, ih (fun row hrow => h row (by simp [hrow])) (fun row hrow => h' row (by simp [hrow]))
      htail]

/-- There is one list of the rows in chronological order. -/
theorem inOrder_iff (h : Sequenced rows) (hmeeting : ∀ row ∈ rows, row.meetingId = meetingId)
    (hlisted : listed.Perm rows) : InOrder rows listed ↔ listed = chronologicalRows rows := by
  unfold InOrder
  rw [← map_segment_chronologicalRows h]
  constructor
  · apply map_segment_inj (fun row hrow => hmeeting row (hlisted.mem_iff.mp hrow))
    exact fun row hrow => hmeeting row ((perm_orderBy _ _ _).mem_iff.mp hrow)
  · exact congrArg _

theorem compareSegments_segment (h : Sequenced rows) (ha : a ∈ rows) (hb : b ∈ rows) :
    compareSegments a.segment b.segment = compare (segmentKey a) (segmentKey b) :=
  compareSegments_eq (h.isNaN_sortTime ha) (h.isNaN_sortTime hb)

theorem perm_chronologicalRows (rows : List TranscriptRow) : (chronologicalRows rows).Perm rows :=
  perm_orderBy _ _ _

/-- The chronological order is by the start time first. -/
theorem pairwise_startKey (h : Sequenced rows) :
    (chronologicalRows rows).Pairwise fun a b => startKey a ≤ startKey b := by
  refine (pairwise_orderBy segmentKey (.stored _) rows).imp_of_mem ?_
  intro a b ha hb hab
  obtain ⟨s, hs, -⟩ := h.start a ((perm_chronologicalRows rows).mem_iff.mp ha)
  obtain ⟨t, ht, -⟩ := h.start b ((perm_chronologicalRows rows).mem_iff.mp hb)
  have hrank : Float64.rank s ≤ Float64.rank t := by
    have hfirst := Prod.Lex.monotone_fst _ _ hab
    simpa [segmentKey, sortRank, sortTime, TranscriptRow.segment, hs, ht] using hfirst
  rw [startKey, startKey, hs, ht]
  exact WithBot.coe_le_coe.mpr hrank

/-- The agent's order is by the sequence number first. -/
theorem transcriptKey_lt {x y : Int64} (ha : a.sequenceId = some x) (hb : b.sequenceId = some y)
    (hxy : x < y) : Mcp.transcriptKey a < Mcp.transcriptKey b := by
  apply Prod.Lex.toLex_lt_toLex.mpr
  left
  rw [ha, hb]
  exact WithTop.coe_lt_coe.mpr (Int64.lt_iff_toInt_lt.mp hxy)

theorem eq_of_transcriptKey (h : Sequenced rows) (ha : a ∈ rows) (hb : b ∈ rows)
    (hab : Mcp.transcriptKey a = Mcp.transcriptKey b) : a = b := by
  apply h.eq_of_sequence ha hb
  have hsequence : a.sequenceId.map Int64.toInt = b.sequenceId.map Int64.toInt :=
    congrArg (fun key => (ofLex key).1) hab
  exact Option.map_injective (fun x y hxy => Int64.toInt_inj.mp hxy) hsequence

/-! ## Readers -/

/-- Without an `ORDER BY` only one row has one order. -/
theorem meetingRows_iff (db : Database) (h : Sequenced (transcriptsOf db meetingId)) :
    (∀ order, meetingRows order db meetingId = chronologicalRows (transcriptsOf db meetingId)) ↔
      (transcriptsOf db meetingId).length ≤ 1 := by
  have horder := forall_orderBy_eq_iff (fun _ => ()) h.nodup
    (perm_chronologicalRows (transcriptsOf db meetingId))
  simp only [orderBy_const, true_imp_iff, le_refl] at horder
  unfold meetingRows
  rw [horder, and_iff_left (List.pairwise_of_forall fun _ _ => trivial)]
  exact forall_mem_eq_iff h.nodup

/-- Pages of one order are the pages of one list. -/
theorem allPages_eq {orders : ℕ → Arrangement TranscriptRow} {db : Database} {limit : ℤ}
    (hlimit : 0 < limit) (hlisted : listed.Perm (transcriptsOf db meetingId))
    (h : ∀ k, orderBy startKey (orders k) (transcriptsOf db meetingId) = listed) :
    allPages orders db meetingId limit = listed := by
  have hsize : 0 < limit.toNat := by omega
  have hpage : ∀ k, pageRows (orders k) db meetingId limit (k * limit.toNat : ℕ) =
      limitOffset limit.toNat (k * limit.toNat) listed := by
    intro k
    simp only [pageRows, h k, Int.toNat_natCast, limitOffset]
    rw [if_neg (by omega)]
  simp only [allPages, hpage]
  apply flatMap_limitOffset
  rw [hlisted.length_eq]
  have hdiv := Nat.div_add_mod ((transcriptsOf db meetingId).length + limit.toNat - 1) limit.toNat
  have hmod := Nat.mod_lt ((transcriptsOf db meetingId).length + limit.toNat - 1) hsize
  rw [Nat.mul_comm] at hdiv
  omega

/-- Pages are in chronological order if no two rows start at the same time. -/
theorem allPages_iff (db : Database) (h : Sequenced (transcriptsOf db meetingId)) {limit : ℤ}
    (hlimit : 0 < limit) :
    (∀ orders, allPages orders db meetingId limit =
        chronologicalRows (transcriptsOf db meetingId)) ↔
      (transcriptsOf db meetingId).Pairwise fun a b => startKey a ≠ startKey b := by
  have horder := forall_orderBy_eq_iff startKey h.nodup
    (perm_chronologicalRows (transcriptsOf db meetingId))
  have hpairwise : ((transcriptsOf db meetingId).Pairwise fun a b => startKey a ≠ startKey b) ↔
      ∀ a ∈ transcriptsOf db meetingId, ∀ b ∈ transcriptsOf db meetingId,
        startKey a = startKey b → a = b := by
    rw [← List.pairwise_map, ← List.nodup_iff_pairwise_ne, List.nodup_map_iff_inj_on h.nodup]
  rw [hpairwise]
  constructor
  · intro hall
    refine (horder.mp ?_).1
    intro order
    rw [← hall fun _ => order]
    exact (allPages_eq hlimit (perm_orderBy _ _ _) fun _ => rfl).symm
  · intro hkey orders
    have hone := horder.mpr ⟨hkey, pairwise_startKey h⟩
    exact allPages_eq hlimit (perm_chronologicalRows _) fun k => hone (orders k)

/-- The agent's order is the chronological one if the sequence numbers are in it. -/
theorem transcriptRows_iff (db : Database) (h : Sequenced (transcriptsOf db meetingId)) :
    (∀ order, Mcp.transcriptRows order db meetingId =
        chronologicalRows (transcriptsOf db meetingId)) ↔
      TranscriptReader.agent.Untroubled (transcriptsOf db meetingId) := by
  have horder := forall_orderBy_eq_iff Mcp.transcriptKey h.nodup
    (perm_chronologicalRows (transcriptsOf db meetingId))
  have hkey : ∀ a ∈ transcriptsOf db meetingId, ∀ b ∈ transcriptsOf db meetingId,
      Mcp.transcriptKey a = Mcp.transcriptKey b → a = b :=
    fun a ha b hb => eq_of_transcriptKey h ha hb
  have hmem : ∀ {a}, a ∈ chronologicalRows (transcriptsOf db meetingId) ↔
      a ∈ transcriptsOf db meetingId := (perm_chronologicalRows _).mem_iff
  have hsorted : (chronologicalRows (transcriptsOf db meetingId)).Pairwise
      fun a b => segmentKey a ≤ segmentKey b := pairwise_orderBy _ _ _
  unfold Mcp.transcriptRows
  rw [horder, and_iff_right hkey]
  constructor
  · intro hagent a ha b hb x hx y hy hxy
    have hne : a ≠ b := by
      rintro rfl
      obtain rfl := Option.some.inj (hx.symm.trans hy)
      exact lt_irrefl _ (Int64.lt_iff_toInt_lt.mp hxy)
    rw [compareSegments_segment h ha hb, compare_lt_iff_lt]
    rcases pair_sublist_or (hmem.mpr ha) (hmem.mpr hb) hne with hsub | hsub
    · have hle := rel_of_pairwise hsorted hsub
      exact lt_of_le_of_ne hle fun he => hne (h.eq_of_segmentKey ha hb he)
    · have hle := rel_of_pairwise hagent hsub
      exact absurd (transcriptKey_lt hx hy hxy) hle.not_gt
  · intro hagent
    have hnodup : (chronologicalRows (transcriptsOf db meetingId)).Nodup :=
      (perm_chronologicalRows _).nodup_iff.mpr h.nodup
    refine (hsorted.and hnodup).imp_of_mem ?_
    rintro a b ha hb ⟨hab, hne⟩
    obtain ⟨x, hx⟩ := Option.isSome_iff_exists.mp (h.sequence a (hmem.mp ha))
    obtain ⟨y, hy⟩ := Option.isSome_iff_exists.mp (h.sequence b (hmem.mp hb))
    rcases lt_trichotomy x.toInt y.toInt with hxy | hxy | hxy
    · exact (transcriptKey_lt hx hy (Int64.lt_iff_toInt_lt.mpr hxy)).le
    · refine absurd (h.eq_of_sequence (hmem.mp ha) (hmem.mp hb) ?_) hne
      rw [hx, hy, Int64.toInt_inj.mp hxy]
    · have hlt := hagent b (hmem.mp hb) a (hmem.mp ha) y hy x hx (Int64.lt_iff_toInt_lt.mpr hxy)
      rw [compareSegments_segment h (hmem.mp hb) (hmem.mp ha), compare_lt_iff_lt] at hlt
      exact absurd hab hlt.not_ge

theorem meetingId_of_mem {db : Database} : ∀ row ∈ transcriptsOf db meetingId,
    row.meetingId = meetingId := by
  intro row hrow
  simpa using (List.mem_filter.mp hrow).2

theorem agrees_meeting_iff (db : Database) (h : Sequenced (transcriptsOf db meetingId)) :
    TranscriptReader.meeting.Agrees db meetingId ↔ (transcriptsOf db meetingId).length ≤ 1 := by
  rw [← meetingRows_iff db h]
  exact forall_congr' fun order => inOrder_iff h meetingId_of_mem (order.perm _)

theorem agrees_pages_iff (db : Database) (h : Sequenced (transcriptsOf db meetingId)) {limit : ℤ}
    (hlimit : 0 < limit) :
    (TranscriptReader.pages limit).Agrees db meetingId ↔
      (transcriptsOf db meetingId).Pairwise fun a b => startKey a ≠ startKey b := by
  rw [← allPages_iff db h hlimit]
  refine forall_congr' fun orders => ?_
  constructor
  · rintro ⟨hperm, horder⟩
    exact (inOrder_iff h meetingId_of_mem hperm).mp horder
  · intro heq
    have hperm := perm_chronologicalRows (transcriptsOf db meetingId)
    rw [← heq] at hperm
    exact ⟨hperm, (inOrder_iff h meetingId_of_mem hperm).mpr heq⟩

theorem agrees_agent_iff (db : Database) (h : Sequenced (transcriptsOf db meetingId)) :
    TranscriptReader.agent.Agrees db meetingId ↔
      TranscriptReader.agent.Untroubled (transcriptsOf db meetingId) := by
  rw [← transcriptRows_iff db h]
  exact forall_congr' fun order => inOrder_iff h meetingId_of_mem (perm_orderBy _ _ _)

end Order

/-- **Whose order it is.** A reader lists the transcript in the order of
`sort_segments_chronologically`, whatever SQLite chooses, exactly if its rows are such that the
choice makes no difference to it. -/
theorem agrees_iff (r : TranscriptReader) (db : Database) (meetingId : String)
    (hpages : ∀ limit, r = .pages limit → 0 < limit)
    (h : Sequenced (transcriptsOf db meetingId)) :
    r.Agrees db meetingId ↔ r.Untroubled (transcriptsOf db meetingId) := by
  cases r with
  | meeting => exact agrees_meeting_iff db h
  | pages limit => exact agrees_pages_iff db h (hpages limit rfl)
  | agent => exact agrees_agent_iff db h

/-- A row with a sequence number and a start time. -/
def rowAt (id : String) (sequenceId : Int64) (start : Float) : TranscriptRow :=
  ⟨id, "meeting-1", "said", "2026-01-01T09:00:00+00:00", some start, none, none, some "mic", none,
    some sequenceId, some "mic", none⟩

/-- A long segment is cut after a short one that started later, and another starts with it. -/
def lateSegment : Database where
  meetings := ["meeting-1"]
  transcripts := [rowAt "transcript-1" 1 5, rowAt "transcript-2" 2 1, rowAt "transcript-3" 3 1]
  voiceProfiles := []

theorem sequenced_lateSegment : Sequenced (transcriptsOf lateSegment "meeting-1") := by
  refine ⟨?_, by decide, ?_⟩
  · simp [transcriptsOf, lateSegment, rowAt]
  · have hfive : (5 : Float).isNaN = false := by decide +kernel
    have hone : (1 : Float).isNaN = false := by decide +kernel
    have hrows : transcriptsOf lateSegment "meeting-1" = lateSegment.transcripts := by
      simp [transcriptsOf, lateSegment, rowAt]
    rw [hrows]
    simp only [lateSegment, List.forall_mem_cons, List.not_mem_nil, false_implies, implies_true,
      and_true]
    exact ⟨⟨5, rfl, hfive⟩, ⟨1, rfl, hone⟩, 1, rfl, hone⟩

/-- The pages of a meeting whose rows start at different times. -/
theorem agrees_pages_oneRow :
    let db : Database := { lateSegment with transcripts := [rowAt "transcript-1" 1 5] }
    (TranscriptReader.pages 2).Agrees db "meeting-1" ↔
      (TranscriptReader.pages 2).Untroubled (transcriptsOf db "meeting-1") := by
  refine agrees_iff _ _ _ ?_ ⟨?_, by decide, ?_⟩
  · rintro limit he
    obtain rfl := TranscriptReader.pages.inj he
    decide
  · simp [transcriptsOf, rowAt]
  · have hfive : (5 : Float).isNaN = false := by decide +kernel
    intro row hrow
    obtain rfl := List.mem_singleton.mp (List.mem_of_mem_filter hrow)
    exact ⟨5, rfl, hfive⟩

/-- None of the readers lists the three rows in chronological order whatever SQLite chooses. -/
theorem not_agrees_lateSegment :
    ¬ TranscriptReader.meeting.Agrees lateSegment "meeting-1" ∧
      ¬ (TranscriptReader.pages 2).Agrees lateSegment "meeting-1" ∧
      ¬ TranscriptReader.agent.Agrees lateSegment "meeting-1" := by
  have h := sequenced_lateSegment
  rw [agrees_meeting_iff _ h, agrees_pages_iff _ h (by decide), agrees_agent_iff _ h]
  refine ⟨?_, ?_, ?_⟩
  · simp [transcriptsOf, lateSegment, rowAt]
  · intro hdistinct
    obtain ⟨-, hlast⟩ := List.pairwise_cons.mp hdistinct
    exact (List.pairwise_cons.mp hlast).1 (rowAt "transcript-3" 3 1)
      (by simp [rowAt]) rfl
  · intro hagent
    have hlt := hagent (rowAt "transcript-1" 1 5) (by simp [transcriptsOf, lateSegment, rowAt])
      (rowAt "transcript-2" 2 1) (by simp [transcriptsOf, lateSegment, rowAt]) 1 rfl 2 rfl
      (by decide)
    revert hlt
    decide +kernel

end MeetilyLocal
