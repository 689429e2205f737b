import MeetilyLocal.Audio.LiveTranscript
import MeetilyLocal.Audio.RecoveryLoss

/-!
# The transcript of a recovered meeting

The journal is kept so that "crash recovery can still replay it", and it "remains the source of
truth if a batch is ever lost". So a meeting that was recovered should have a row for the last
journaled version of each segment (`RecoversTranscript`). But recovery does not read the journal: the
rows are those of the last versions whose batches were committed before the app was gone
(`Tracks.rows`), and they are enough exactly if the database had caught up with the journal
(`recoversTranscript_iff`).
-/

namespace MeetilyLocal

namespace LiveTranscript

open TranscriptsRepository TranscriptJournal Recovery

/-- The transcription published it. -/
def Published (segment : TranscriptSegment) : Prop := ∃ update : TranscriptUpdate,
  segment = update.segment

/-- The items are published segments of the meeting. -/
def PublishedOf (meetingId : String) (items : List (String × TranscriptSegment)) : Prop :=
  ∀ item ∈ items, item.1 = meetingId ∧ Published item.2

/-- The rows of the meeting are those of the batches that were committed. -/
structure Tracks (meetingId : String) (st : LiveTranscript) : Prop where
  /-- it is the meeting that is recorded -/
  meetingId_eq : st.meetingId = meetingId
  /-- a published segment is being handed over -/
  publishing : ∀ segment, st.publishing = some segment → Published segment
  /-- published segments are buffered -/
  pending : ∀ segment ∈ st.pending, Published segment
  /-- and journaled -/
  journalQueue : ∀ segment ∈ st.journalQueue, Published segment
  /-- in the end -/
  journaled : ∀ segment ∈ st.journaled, Published segment
  /-- published segments are sent to the database writer -/
  queue : PublishedOf meetingId st.queue
  /-- which collects them -/
  batch : PublishedOf meetingId st.batch
  /-- and writes them -/
  written : ∀ segment ∈ st.written, Published segment
  /-- the rows of the meeting -/
  rows : HoldsLast meetingId st.written st.db

variable {serde : Serde} {env : SqlEnv} {st st' : LiveTranscript} {meetingId : String}
  {segment : TranscriptSegment}

theorem Published.sequenceId_ne (h : Published segment) : segment.sequenceId ≠ none := by
  obtain ⟨update, rfl⟩ := h
  nofun

theorem Published.timestamp_eq (h : Published segment) : segment.timestamp = none := by
  obtain ⟨update, rfl⟩ := h
  rfl

/-! ## What each operation keeps -/

theorem Tracks.enqueue (h : Tracks meetingId st) (hsegment : Published segment) :
    Tracks meetingId (st.enqueue segment) := by
  unfold LiveTranscript.enqueue
  split
  · refine { h with queue := fun item hitem => ?_ }
    rcases List.mem_append.mp hitem with hbefore | hnew
    · exact h.queue item hbefore
    · obtain rfl := List.mem_singleton.mp hnew
      exact ⟨h.meetingId_eq, hsegment⟩
  · exact h

theorem Tracks.flush (h : Tracks meetingId st) (env : SqlEnv) :
    Tracks meetingId (st.flush env) := by
  unfold LiveTranscript.flush
  split
  · exact h
  split
  · next hstored =>
    have hitems : AreOf meetingId st.batch := fun item hitem =>
      ⟨(h.batch item hitem).1, (h.batch item hitem).2.sequenceId_ne⟩
    refine { h with
      batch := fun _ => nofun
      written := fun segment hsegment => ?_
      rows := h.rows.upsertTranscriptSegments hitems hstored }
    rcases List.mem_append.mp hsegment with hbefore | hnew
    · exact h.written segment hbefore
    · obtain ⟨item, hitem, rfl⟩ := List.mem_map.mp hnew
      exact (h.batch item hitem).2
  · exact { h with batch := fun _ => nofun }

theorem Tracks.receive (h : Tracks meetingId st) {item : String × TranscriptSegment}
    {rest : List (String × TranscriptSegment)} (hqueue : st.queue = item :: rest) (env : SqlEnv) :
    Tracks meetingId (st.receive env item rest) := by
  have hreceived : Tracks meetingId { st with queue := rest, batch := st.batch ++ [item] } := by
    obtain ⟨hitem, hrest⟩ := List.forall_mem_cons.mp (hqueue ▸ h.queue)
    refine { h with queue := hrest, batch := fun other hother => ?_ }
    rcases List.mem_append.mp hother with hbefore | hnew
    · exact h.batch other hbefore
    · obtain rfl := List.mem_singleton.mp hnew
      exact hitem
  simp only [LiveTranscript.receive]
  split
  · exact hreceived.flush env
  · exact hreceived

theorem Tracks.sendJournal (h : Tracks meetingId st) {segments : List TranscriptSegment}
    (hsegments : ∀ segment ∈ segments, Published segment) :
    Tracks meetingId (st.sendJournal segments) := by
  unfold LiveTranscript.sendJournal
  split
  · refine { h with journalQueue := fun segment hsegment => ?_ }
    rcases List.mem_append.mp hsegment with hbefore | hnew
    · exact h.journalQueue segment hbefore
    · exact hsegments segment hnew
  · exact h

theorem Tracks.deliver (h : Tracks meetingId st) (hsegment : Published segment) :
    Tracks meetingId (st.deliver segment) := by
  have hsingle : ∀ other ∈ [segment], Published other := by simpa using hsegment
  unfold LiveTranscript.deliver
  split
  · exact h.sendJournal hsingle
  · refine { h with pending := fun other hother => ?_ }
    rcases List.mem_append.mp hother with hbefore | hnew
    · exact h.pending other hbefore
    · exact hsingle other hnew

theorem Tracks.append (h : Tracks meetingId st) {rest : List TranscriptSegment}
    (hqueue : st.journalQueue = segment :: rest) (serde : Serde) (outcome : WriteOutcome) :
    Tracks meetingId (st.append serde segment rest outcome) := by
  obtain ⟨hsegment, hrest⟩ := List.forall_mem_cons.mp (hqueue ▸ h.journalQueue)
  unfold LiveTranscript.append
  split
  · refine { h with journalQueue := hrest, journaled := fun other hother => ?_ }
    rcases List.mem_append.mp hother with hbefore | hnew
    · exact h.journaled other hbefore
    · obtain rfl := List.mem_singleton.mp hnew
      exact hsegment
  · exact { h with journalQueue := hrest }

/-! ## Runs -/

/-- Every step keeps track of the rows. -/
theorem Tracks.step (h : Tracks meetingId st) (hstep : LiveStep serde st st') :
    Tracks meetingId st' := by
  cases hstep with
  | publish _ _ update =>
    have hpublished : Published update.segment := ⟨update, rfl⟩
    exact { h.enqueue hpublished with
      publishing := fun segment hsegment => Option.some.inj hsegment ▸ hpublished }
  | deliver hpublishing =>
    exact { h.deliver (h.publishing _ hpublishing) with publishing := fun _ => nofun }
  | replay => exact { h.sendJournal h.pending with pending := fun _ => nofun }
  | receive _ hqueue env => exact h.receive hqueue env
  | tick _ _ _ env => exact h.flush env
  | close _ _ _ env => exact { h.flush env with }
  | append hqueue outcome => exact h.append hqueue serde outcome
  | takeManager | putBack | unsubscribe | dropWriter | abort => exact { h with }

theorem Tracks.reaches (h : Tracks meetingId st) (hreach : Reaches serde st st') :
    Tracks meetingId st' := by
  induction hreach with
  | refl => exact h
  | tail _ hstep ih => exact ih.step hstep

/-- A meeting that has just been created has no rows, since they refer to their meetings. -/
theorem tracks_start {db db' : Database} {pending : List TranscriptSegment}
    (hforeign : ∀ row ∈ db.transcripts, row.meetingId ∈ db.meetings)
    (hcreated : createRecordingMeeting env db meetingId = .ok db')
    (hpending : ∀ segment ∈ pending, Published segment) (journaling : Bool) (files : Directory) :
    Tracks meetingId (start meetingId pending journaling files db') where
  meetingId_eq := rfl
  publishing := fun _ => nofun
  pending := hpending
  journalQueue := fun _ => nofun
  journaled := fun _ => nofun
  queue := fun _ => nofun
  batch := fun _ => nofun
  written := fun _ => nofun
  rows := by
    refine holdsLast_nil fun row hrow hmeeting => ?_
    unfold createRecordingMeeting at hcreated
    split at hcreated
    · cases hcreated
    split at hcreated
    · cases hcreated
    · next hnew =>
      obtain rfl := Except.ok.inj hcreated
      exact hnew (List.contains_iff_mem.mpr (hmeeting ▸ hforeign row hrow))

/-! ## Recovery -/

/-- What the app finds of the meeting after it was gone. -/
structure Interrupted (st : LiveTranscript) (world : RecoveryWorld) : Prop where
  /-- the row, which the start has marked as interrupted -/
  row : ∃ row, world.row = some row ∧ row.id = st.meetingId ∧ row.status = .interrupted
  /-- the files of the folder -/
  files : world.folder.files = st.files
  /-- the database beside that row -/
  db : world.db = st.db

/-- The meeting has a row for that version of a segment. -/
def HasRow (db : Database) (meetingId : String) (segment : TranscriptSegment) : Prop :=
  ∃ row ∈ db.transcripts, IsRowOf meetingId segment row

/-- If recovery completes the meeting, it has a row for the last journaled version of each segment. -/
def RecoversTranscript (env : RecoverEnv) (st : LiveTranscript) (world : RecoveryWorld) : Prop :=
  (recoverMeeting env world).1 = .ok true →
    ∀ last ∈ lastWrites st.journaled, HasRow (recoverMeeting env world).2.db st.meetingId last

/-- Both versions are stored as the same row. -/
def StoredAlike (a b : TranscriptSegment) : Prop :=
  ∀ id meetingId now, segmentRow id meetingId now a = segmentRow id meetingId now b

/-- The database has caught up with the journal: of each journaled segment, the last version whose
batch was committed is the last one that was journaled, as far as it is stored. -/
def CaughtUp (st : LiveTranscript) : Prop :=
  ∀ last ∈ lastWrites st.journaled, ∃ committed ∈ lastWrites st.written, StoredAlike committed last

/-- Recovery leaves the transcript as it is. -/
theorem db_recoverMeeting (env : RecoverEnv) (world : RecoveryWorld) :
    (recoverMeeting env world).2.db = world.db := by
  unfold recoverMeeting
  split
  · rfl
  split
  · rfl
  split
  split <;> rfl

/-- It completes the meeting if its two statements are executed. -/
theorem recoverMeeting_eq_ok {env : RecoverEnv} {world : RecoveryWorld} {row : MeetingRow}
    (hrow : world.row = some row) :
    (recoverMeeting env world).1 = .ok true ↔ env.select = true ∧ env.update = true := by
  unfold recoverMeeting
  rw [hrow]
  cases env.select <;> cases env.update <;> simp

/-- Two published segments that one row was stored for are stored alike. -/
theorem storedAlike_of_isRowOf {row : TranscriptRow} {committed last : TranscriptSegment}
    (hcommitted : Published committed) (hlast : Published last)
    (h : IsRowOf meetingId committed row) (h' : IsRowOf meetingId last row) :
    StoredAlike committed last := by
  obtain ⟨now, hrow⟩ := h
  obtain ⟨now', hrow'⟩ := h'
  rw [hrow'] at hrow
  intro id meetingId now
  simp only [segmentRow, TranscriptRow.mk.injEq] at hrow ⊢
  simp only [hcommitted.timestamp_eq, hlast.timestamp_eq, Option.getD_none] at hrow ⊢
  grind

/-- The rows there are decide which versions the meeting has rows for. -/
theorem Tracks.hasRow_iff (h : Tracks meetingId st) {last : TranscriptSegment}
    (hlast : Published last) : HasRow st.db meetingId last ↔
      ∃ committed ∈ lastWrites st.written, StoredAlike committed last := by
  constructor
  · rintro ⟨row, hrow, hrowof⟩
    obtain ⟨committed, hcommitted, hrowof'⟩ := h.rows.sound row hrow hrowof.meetingId_eq
    have hpublished := h.written committed (mem_of_mem_lastWrites hcommitted)
    exact ⟨committed, hcommitted, storedAlike_of_isRowOf hpublished hlast hrowof' hrowof⟩
  · rintro ⟨committed, hcommitted, halike⟩
    obtain ⟨row, hrow, now, hrowof⟩ := h.rows.complete committed hcommitted
    exact ⟨row, hrow, now, hrowof.trans (halike _ _ _)⟩

/-- **When a recovered transcript is complete**: if recovery gets to complete the meeting, wherever
the recording was interrupted, exactly if the database had caught up with the journal. -/
theorem recoversTranscript_iff {db db' : Database} {pending : List TranscriptSegment}
    {journaling : Bool} {files : Directory} {recoverEnv : RecoverEnv} {world : RecoveryWorld}
    (hforeign : ∀ row ∈ db.transcripts, row.meetingId ∈ db.meetings)
    (hcreated : createRecordingMeeting env db meetingId = .ok db')
    (hpending : ∀ segment ∈ pending, Published segment)
    (hreach : Reaches serde (start meetingId pending journaling files db') st)
    (hinterrupted : Interrupted st world) :
    RecoversTranscript recoverEnv st world ↔
      (recoverEnv.select = true → recoverEnv.update = true → CaughtUp st) := by
  have htracks := (tracks_start hforeign hcreated hpending journaling files).reaches hreach
  obtain ⟨row, hrow, -, -⟩ := hinterrupted.row
  have hrows : (∀ last ∈ lastWrites st.journaled,
      HasRow (recoverMeeting recoverEnv world).2.db st.meetingId last) ↔ CaughtUp st := by
    rw [db_recoverMeeting, hinterrupted.db, htracks.meetingId_eq]
    refine forall₂_congr fun last hlast => htracks.hasRow_iff ?_
    exact htracks.journaled last (mem_of_mem_lastWrites hlast)
  rw [RecoversTranscript, recoverMeeting_eq_ok hrow, hrows, and_imp]

/-- What is said in a recording. -/
def hello : TranscriptUpdate := ⟨"hello", "[00:00]", "mic", 0, 1, 0, 1, 1, none, none⟩

/-- Its line in the journal. -/
def helloLine : List Char :=
  ("\x7b\"id\":\"seg_0\",\"text\":\"hello\",\"audio_start_time\":0.0,\"audio_end_time\":1.0," ++
    "\"duration\":1.0,\"display_time\":\"[00:00]\",\"confidence\":1.0,\"sequence_id\":0," ++
    "\"source\":\"mic\"\x7d").toList

/-- A codec on that segment alone. -/
def helloSerde : Serde where
  toString segment := if segment.text = "hello" then .ok helloLine else .error "not supported"
  fromStr line :=
    if line = helloLine then .ok hello.segment else .error "expected value at line 1 column 1"
  float64 := some
  float32 := some

/-- The database of an app that has not recorded. -/
def emptyDatabase : Database := ⟨[], [], []⟩

/-- All statements are executed. -/
def executed : SqlEnv := ⟨fun _ => true, fun _ => "2026-01-01T10:00:01+00:00", toString⟩

/-- A recording begins. -/
def helloStart : LiveTranscript := start "meeting-1" [] true .empty ⟨["meeting-1"], [], []⟩

/-- The segment is journaled, and waits for the database writer. -/
def helloJournaled : LiveTranscript :=
  { helloStart with
    queue := [("meeting-1", hello.segment)]
    files := Function.update Directory.empty transcriptsJournalFilename
      (some (Utf8.encode (helloLine ++ ['\n'])))
    journaled := [hello.segment] }

/-- It is written into the database. -/
def helloWritten : LiveTranscript :=
  { helloJournaled with
    queue := []
    db := ⟨["meeting-1"],
      [segmentRow "transcript-0" "meeting-1" "2026-01-01T10:00:01+00:00" hello.segment], []⟩
    written := [hello.segment] }

theorem reaches_helloJournaled : Reaches helloSerde helloStart helloJournaled := by
  let delivered : LiveTranscript := { helloStart with
    queue := [("meeting-1", hello.segment)]
    journalQueue := [hello.segment] }
  have hpublished : Reaches helloSerde helloStart _ := .single (.publish rfl rfl hello)
  have hdelivered : Reaches helloSerde helloStart delivered := hpublished.tail (.deliver rfl)
  have hline : helloSerde.toString hello.segment = .ok helloLine := by
    simp [helloSerde, hello, TranscriptUpdate.segment]
  have happended : append helloSerde delivered hello.segment [] .ok = helloJournaled := by
    simp [append, appendTranscriptJournalLine, hline, delivered, helloJournaled, helloStart, start,
      Directory.append, Directory.empty]
  exact happended ▸ hdelivered.tail (.append rfl .ok)

theorem reaches_helloWritten : Reaches helloSerde helloStart helloWritten := by
  have hreceived : Reaches helloSerde helloStart
      { helloJournaled with queue := [], batch := [("meeting-1", hello.segment)] } :=
    reaches_helloJournaled.tail (.receive rfl rfl executed)
  exact hreceived.tail (.tick rfl rfl rfl executed)

/-- The app is gone, and finds the meeting at its next start. -/
def helloWorld (st : LiveTranscript) : RecoveryWorld :=
  ⟨some ⟨"meeting-1", none, .interrupted, none, none, none⟩, ⟨st.files, none, none⟩, st.db⟩

/-- It is recovered. -/
def helloRecovery : RecoverEnv where
  select := true
  readDir _ := none
  listing := []
  readFormat := none
  parseFormat _ := none
  stat _ := true
  reading := readWhole
  readError _ := none
  spawn := .ok ()
  exit := .ok ()
  left := id
  panic := none
  concat := .notRun "FFmpeg not found. Please install FFmpeg to recover audio."
  cleanup := none
  update := true
  now := "2026-01-01T11:00:00+00:00"

theorem recoversTranscript_hello :
    RecoversTranscript helloRecovery helloWritten (helloWorld helloWritten) := by
  have hforeign : ∀ row ∈ emptyDatabase.transcripts, row.meetingId ∈ emptyDatabase.meetings :=
    fun _ => nofun
  have hcreated : createRecordingMeeting executed emptyDatabase "meeting-1" =
      .ok ⟨["meeting-1"], [], []⟩ := rfl
  refine (recoversTranscript_iff hforeign hcreated (List.forall_mem_nil _) reaches_helloWritten
    ⟨⟨_, rfl, rfl, rfl⟩, rfl, rfl⟩).mpr fun _ _ last hlast => ?_
  exact ⟨last, hlast, fun _ _ _ => rfl⟩

/-- A crash before the batch is written: the segment is in the journal, and the completed meeting
has no row for it. -/
theorem not_recoversTranscript_hello :
    ¬∀ st, Reaches helloSerde helloStart st → ∀ world, Interrupted st world →
      RecoversTranscript helloRecovery st world := by
  intro h
  have hrecovers := h helloJournaled reaches_helloJournaled (helloWorld helloJournaled)
    ⟨⟨_, rfl, rfl, rfl⟩, rfl, rfl⟩
  obtain ⟨row, hrow, -⟩ := hrecovers rfl hello.segment (by simp [helloJournaled, lastWrites])
  rw [db_recoverMeeting] at hrow
  cases hrow

end LiveTranscript

end MeetilyLocal
