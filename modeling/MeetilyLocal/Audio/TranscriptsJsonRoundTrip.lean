import MeetilyLocal.Audio.TranscriptJournalReplay
import MeetilyLocal.Audio.TranscriptsJson

/-!
# Reading transcripts.json back

The writer of transcripts.json names the fields of a segment one by one, the reader is derived from
the struct. What a list of segments reads back as is given by `readBack`: missing sequence numbers
are filled with the position, as the writer's comment says, floats come back as `serde_json` reads
what it printed, and `source`, the last field of the struct, is lost, since the writer does not name
it. So the round trip keeps exactly the lists whose segments have no source and whose
floats survive (`roundTrips_transcripts_iff`).
-/

namespace MeetilyLocal

open Json

/-- The codec prints a document and reads it back but for its floats. -/
def JsonCodec.Keeps (codec : JsonCodec) (value : Value) : Prop :=
  ∃ text, codec.toStringPretty value = .ok text ∧
    codec.fromStr text = .ok (value.mapFloat codec.float64)

/-- What an `f64` reads back as; NaN and the infinities are written as null. -/
def JsonCodec.readFloat (codec : JsonCodec) (x : Float) : Option Float :=
  if x.isFinite then some (codec.float64 x) else none

/-- What an `f32` reads back as: it is written as an `f64`. -/
def JsonCodec.readFloat32 (codec : JsonCodec) (x : Float32) : Option Float32 :=
  if x.isFinite then some (codec.float64 x.toFloat).toFloat32 else none

namespace TranscriptsJson

open TranscriptJournal

/-- What the segment at position `i` reads back as. -/
def readBack (codec : JsonCodec) (i : ℕ) (s : TranscriptSegment) : TranscriptSegment :=
  { s with
    audioStartTime := s.audioStartTime.bind codec.readFloat
    audioEndTime := s.audioEndTime.bind codec.readFloat
    duration := s.duration.bind codec.readFloat
    confidence := s.confidence.bind codec.readFloat32
    sequenceId := some (s.sequenceId.getD (.ofNat i))
    source := none }

/-! ## Single fields -/

theorem defaultField_string (f : Float → Float) (s : Option String) :
    defaultField Value.deserializeString ((s.map Value.string).map (Value.mapFloat f)) =
      some s := by
  cases s <;> rfl

theorem defaultField_ofOption_string (f : Float → Float) (s : Option String) :
    defaultField Value.deserializeString
      ((some (Value.ofOption Value.string s)).map (Value.mapFloat f)) = some s := by
  cases s <;> rfl

theorem deserializeOption_ofFloat (codec : JsonCodec) (x : Float) :
    ((Value.ofFloat x).mapFloat codec.float64).deserializeOption Value.deserializeFloat =
      some (codec.readFloat x) := by
  rw [Value.ofFloat, JsonCodec.readFloat]
  cases x.isFinite <;> rfl

theorem deserializeOption_ofFloat32 (codec : JsonCodec) (x : Float32) :
    ((Value.ofFloat32 x).mapFloat codec.float64).deserializeOption Value.deserializeFloat32 =
      some (codec.readFloat32 x) := by
  rw [Value.ofFloat32, JsonCodec.readFloat32]
  cases x.isFinite <;> rfl

theorem defaultField_ofOption_ofFloat (codec : JsonCodec) (x : Option Float) :
    defaultField Value.deserializeFloat
      ((some (Value.ofOption Value.ofFloat x)).map (Value.mapFloat codec.float64)) =
      some (x.bind codec.readFloat) := by
  cases x with
  | none => rfl
  | some x => exact deserializeOption_ofFloat codec x

theorem defaultField_ofFloat32 (codec : JsonCodec) (x : Option Float32) :
    defaultField Value.deserializeFloat32
      ((x.map Value.ofFloat32).map (Value.mapFloat codec.float64)) =
      some (x.bind codec.readFloat32) := by
  cases x with
  | none => rfl
  | some x => exact deserializeOption_ofFloat32 codec x

/-! ## One segment -/

/-- What is found in the entries of a segment under each name. -/
theorem lookup_segmentEntries (i : ℕ) (s : TranscriptSegment) :
    (segmentEntries i s).lookup "id" = some (.string s.id) ∧
    (segmentEntries i s).lookup "text" = some (.string s.text) ∧
    (segmentEntries i s).lookup "timestamp" = s.timestamp.map .string ∧
    (segmentEntries i s).lookup "audio_start_time" = some (.ofOption .ofFloat s.audioStartTime) ∧
    (segmentEntries i s).lookup "audio_end_time" = some (.ofOption .ofFloat s.audioEndTime) ∧
    (segmentEntries i s).lookup "duration" = some (.ofOption .ofFloat s.duration) ∧
    (segmentEntries i s).lookup "display_time" = s.displayTime.map .string ∧
    (segmentEntries i s).lookup "confidence" = s.confidence.map .ofFloat32 ∧
    (segmentEntries i s).lookup "sequence_id" =
      some (.number (.posInt (s.sequenceId.getD (.ofNat i)))) ∧
    (segmentEntries i s).lookup "speaker" = some (.ofOption .string s.speaker) ∧
    (segmentEntries i s).lookup "voice_profile_id" = some (.ofOption .string s.voiceProfileId) ∧
    (segmentEntries i s).lookup "source" = none := by
  simp [segmentEntries, ofEntries, lookup_insertSome, lookup_insert]

/-- A segment is read back from its entries. -/
theorem deserializeSegment_segmentEntries (codec : JsonCodec) (i : ℕ) (s : TranscriptSegment) :
    deserializeSegment ((Value.object (segmentEntries i s)).mapFloat codec.float64) =
      some (readBack codec i s) := by
  obtain ⟨hid, htext, htimestamp, hstart, hend, hduration, hdisplay, hconfidence, hsequence,
    hspeaker, hprofile, hsource⟩ := lookup_segmentEntries i s
  rw [Value.mapFloat, deserializeSegment, segmentOfSlots]
  simp only [lookup_mapFloatObject, hid, htext, htimestamp, hstart, hend, hduration, hdisplay,
    hconfidence, hsequence, hspeaker, hprofile, hsource, defaultField_string,
    defaultField_ofOption_string, defaultField_ofOption_ofFloat, defaultField_ofFloat32]
  rfl

/-! ## The document -/

/-- The segments are read back from their document, in the same order. -/
theorem deserializeSegments_transcriptsValue (codec : JsonCodec) (lastUpdated : String)
    (segments : List TranscriptSegment) :
    deserializeSegments (segmentsValue
      ((transcriptsValue lastUpdated segments).mapFloat codec.float64)) =
      some (segments.zipIdx.map fun s => readBack codec s.2 s.1) := by
  have hlookup : (ofEntries [
      ("version", .string "1.0"),
      ("last_updated", .string lastUpdated),
      ("total_segments", .number (.posInt (.ofNat segments.length))),
      ("segments", .array (segments.zipIdx.map fun s => .object (segmentEntries s.2 s.1)))]).lookup
        "segments" = some (Value.array
          (segments.zipIdx.map fun s => .object (segmentEntries s.2 s.1))) := by
    simp [ofEntries, lookup_insert]
  have hmapM : ∀ list : List (TranscriptSegment × ℕ),
      ((list.map fun s => Value.object (segmentEntries s.2 s.1)).map
        (Value.mapFloat codec.float64)).mapM deserializeSegment =
        some (list.map fun s => readBack codec s.2 s.1) := by
    intro list
    induction list with
    | nil => rfl
    | cons s list ih =>
      rw [List.map_cons, List.map_cons, List.mapM_cons, deserializeSegment_segmentEntries, ih]
      rfl
  rw [transcriptsValue, Value.mapFloat, segmentsValue, lookup_mapFloatObject, hlookup,
    Option.map_some, Option.getD_some, Value.mapFloat, mapFloatArray_eq, deserializeSegments, hmapM]

/-! ## The folder -/

/-- What a successful write of transcripts.json leaves in the folder. -/
structure Written (codec : JsonCodec) (segments : List TranscriptSegment) (now : ℕ)
    (lastUpdated : String) (folder full : MeetingFolder) : Prop where
  /-- transcripts.json is the printed document -/
  files_json : ∃ text, codec.toStringPretty (transcriptsValue lastUpdated segments) = .ok text ∧
    full.files transcriptsJsonFilename = some (Utf8.encode text)
  /-- it was modified now -/
  modified_json : full.modified transcriptsJsonFilename = some now
  /-- the journal is what it was -/
  files_journal : full.files transcriptsJournalFilename = folder.files transcriptsJournalFilename
  /-- and was not modified -/
  modified_journal :
    full.modified transcriptsJournalFilename = folder.modified transcriptsJournalFilename

theorem json_ne_temp : transcriptsJsonFilename ≠ transcriptsTempFilename := by decide

theorem journal_ne_temp : transcriptsJournalFilename ≠ transcriptsTempFilename := by decide

theorem journal_ne_json : transcriptsJournalFilename ≠ transcriptsJsonFilename := by decide

theorem written_of_ok {codec : JsonCodec} {folder full : MeetingFolder}
    {segments : List TranscriptSegment} {now : ℕ} {lastUpdated : String} {write : WriteOutcome}
    {rename : RenameOutcome}
    (h : writeTranscriptsJson codec folder segments now lastUpdated write rename =
      (.ok (), full)) : Written codec segments now lastUpdated folder full := by
  rw [writeTranscriptsJson] at h
  rcases htext : codec.toStringPretty (transcriptsValue lastUpdated segments) with message | text
  · simp [htext] at h
  · rw [htext] at h
    rcases write with _ | ⟨message, _ | n⟩
    · rcases rename with _ | message
      · obtain ⟨-, rfl⟩ := Prod.mk.inj h
        refine ⟨⟨text, htext, ?_⟩, ?_, ?_, ?_⟩ <;>
          simp [Directory.write, Directory.rename, MeetingFolder.stamp, WriteOutcome.touches,
            Function.update_of_ne json_ne_temp, Function.update_of_ne journal_ne_temp,
            Function.update_of_ne journal_ne_json]
      · cases (Prod.mk.inj h).1
    · cases (Prod.mk.inj h).1
    · cases (Prod.mk.inj h).1

/-- Reading transcripts.json after a successful write. -/
theorem readTranscriptsJson_of_written {codec : JsonCodec} {folder full : MeetingFolder}
    {segments : List TranscriptSegment} {now : ℕ} {lastUpdated : String}
    (hkeeps : codec.Keeps (transcriptsValue lastUpdated segments))
    (h : Written codec segments now lastUpdated folder full) :
    readTranscriptsJson codec full.files =
      .ok (segments.zipIdx.map fun s => readBack codec s.2 s.1) := by
  obtain ⟨text, htext, hbytes⟩ := h.files_json
  obtain ⟨text', htext', hread⟩ := hkeeps
  obtain rfl := Except.ok.inj (htext.symm.trans htext')
  have hcontents : full.files.readToString transcriptsJsonFilename = .ok text := by
    simp [Directory.readToString, hbytes, Utf8.decode_encode]
  rw [readTranscriptsJson, hcontents]
  simp only [hread, deserializeSegments_transcriptsValue]

/-! ## The round trip -/

/-- A segment with its position as its sequence number, if it had none. -/
def withPosition (i : ℕ) (s : TranscriptSegment) : TranscriptSegment :=
  { s with sequenceId := some (s.sequenceId.getD (.ofNat i)) }

/-- Loading the folder returns the segments that were written, in the same order. -/
def RoundTrips (serde : Serde) (codec : JsonCodec) (order : IterationOrder)
    (segments : List TranscriptSegment) (full : MeetingFolder) : Prop :=
  loadTranscriptsFromFolder serde codec order full =
    .ok (segments.zipIdx.map fun s => withPosition s.2 s.1)

/-- The condition on a segment under which it is read back. -/
structure Survives (codec : JsonCodec) (s : TranscriptSegment) : Prop where
  /-- it does not know its audio stream -/
  source : s.source = none
  /-- its start time reads back as itself -/
  audioStartTime : s.audioStartTime.bind codec.readFloat = s.audioStartTime
  /-- its end time reads back as itself -/
  audioEndTime : s.audioEndTime.bind codec.readFloat = s.audioEndTime
  /-- its duration reads back as itself -/
  duration : s.duration.bind codec.readFloat = s.duration
  /-- its confidence reads back as itself -/
  confidence : s.confidence.bind codec.readFloat32 = s.confidence

theorem readBack_eq_iff (codec : JsonCodec) (i : ℕ) (s : TranscriptSegment) :
    readBack codec i s = withPosition i s ↔ Survives codec s := by
  rw [readBack, withPosition, TranscriptSegment.mk.injEq]
  constructor
  · rintro ⟨-, -, -, hstart, hend, hduration, -, hconfidence, -, -, -, hsource⟩
    exact ⟨hsource.symm, hstart, hend, hduration, hconfidence⟩
  · rintro ⟨hsource, hstart, hend, hduration, hconfidence⟩
    exact ⟨rfl, rfl, rfl, hstart, hend, hduration, rfl, hconfidence, rfl, rfl, rfl, hsource.symm⟩

/-- Loading a folder without a journal returns what transcripts.json reads back as. -/
theorem load_of_written {codec : JsonCodec} {folder full : MeetingFolder}
    {segments : List TranscriptSegment} {now : ℕ} {lastUpdated : String} (serde : Serde)
    (order : IterationOrder) (hkeeps : codec.Keeps (transcriptsValue lastUpdated segments))
    (hnojournal : folder.files transcriptsJournalFilename = none)
    (hwritten : Written codec segments now lastUpdated folder full) :
    loadTranscriptsFromFolder serde codec order full =
      .ok (segments.zipIdx.map fun s => readBack codec s.2 s.1) := by
  obtain ⟨text, -, hjson⟩ := hwritten.files_json
  simp [loadTranscriptsFromFolder, hjson, readTranscriptsJson_of_written hkeeps hwritten,
    hwritten.files_journal, hnojournal]

/-- **The round trip of transcripts.json** keeps the segments exactly if none of them has a source
and their floats read back as themselves. -/
theorem roundTrips_transcripts_iff {codec : JsonCodec} {folder full : MeetingFolder}
    {segments : List TranscriptSegment} {now : ℕ} {lastUpdated : String} {write : WriteOutcome}
    {rename : RenameOutcome} (serde : Serde) (order : IterationOrder)
    (hkeeps : codec.Keeps (transcriptsValue lastUpdated segments))
    (hnojournal : folder.files transcriptsJournalFilename = none)
    (hwrite : writeTranscriptsJson codec folder segments now lastUpdated write rename =
      (.ok (), full)) :
    RoundTrips serde codec order segments full ↔ ∀ s ∈ segments, Survives codec s := by
  rw [RoundTrips, load_of_written serde order hkeeps hnojournal (written_of_ok hwrite),
    Except.ok.injEq, List.map_inj_left]
  constructor
  · intro h s hs
    obtain ⟨i, hi, rfl⟩ := List.getElem_of_mem hs
    have hmem : (segments[i], i) ∈ segments.zipIdx := by simp [List.mem_zipIdx_iff_getElem?]
    exact (readBack_eq_iff codec i _).mp (h (segments[i], i) hmem)
  · intro h s hs
    exact (readBack_eq_iff codec s.2 s.1).mpr (h s.1 (List.fst_mem_of_mem_zipIdx hs))

/-! ## A list with one segment -/

/-- The text of the document that has the accented segment only. -/
def accentedText : List Char := "\x7b
  \"last_updated\": \"2026-01-01T00:00:00+00:00\",
  \"segments\": [
    \x7b
      \"audio_end_time\": null,
      \"audio_start_time\": null,
      \"duration\": null,
      \"id\": \"a\",
      \"sequence_id\": 0,
      \"speaker\": null,
      \"text\": \"é\",
      \"voice_profile_id\": null
    \x7d
  ],
  \"total_segments\": 1,
  \"version\": \"1.0\"
\x7d".toList

/-- The document. -/
def accentedValue : Value := transcriptsValue "2026-01-01T00:00:00+00:00" [accented]

/-- A codec on that document alone. -/
def accentedCodec : JsonCodec where
  toStringPretty _ := .ok accentedText
  fromStr text := if text = accentedText then .ok accentedValue else .error "expected value"
  float64 x := x
  fromValueError _ := "expected value"

/-- The accented segment as it was spoken into the microphone. -/
def spoken : TranscriptSegment := { accented with source := some "mic" }

theorem accentedCodec_keeps : accentedCodec.Keeps accentedValue :=
  ⟨accentedText, rfl, by simp [accentedCodec]; rfl⟩

/-- A folder into which a list was written. -/
def writtenFolder (segments : List TranscriptSegment) : MeetingFolder :=
  (writeTranscriptsJson accentedCodec .empty segments 1 "2026-01-01T00:00:00+00:00" .ok .ok).2

theorem writeTranscriptsJson_accentedCodec (segments : List TranscriptSegment) :
    writeTranscriptsJson accentedCodec .empty segments 1 "2026-01-01T00:00:00+00:00" .ok .ok =
      (.ok (), writtenFolder segments) := rfl

/-- Without a source the segment is read back. -/
theorem roundTrips_accented :
    RoundTrips accentedSerde accentedCodec insertionOrder [accented] (writtenFolder [accented]) :=
  (roundTrips_transcripts_iff accentedSerde insertionOrder accentedCodec_keeps
    (rfl : MeetingFolder.empty.files transcriptsJournalFilename = none)
    (writeTranscriptsJson_accentedCodec [accented])).mpr
    (by simpa using ⟨rfl, rfl, rfl, rfl, rfl⟩)

/-- Its source is not written, so that it is missing from what is read back. -/
theorem not_roundTrips_spoken :
    ¬RoundTrips accentedSerde accentedCodec insertionOrder [spoken] (writtenFolder [spoken]) := by
  have hkeeps : accentedCodec.Keeps (transcriptsValue "2026-01-01T00:00:00+00:00" [spoken]) :=
    accentedCodec_keeps
  rw [RoundTrips, load_of_written accentedSerde insertionOrder hkeeps rfl
    (written_of_ok (writeTranscriptsJson_accentedCodec [spoken]))]
  intro hsame
  have hback := List.map_inj_left.mp (Except.ok.inj hsame) (spoken, 0) (by simp)
  have hsource := ((readBack_eq_iff accentedCodec 0 spoken).mp hback).source
  cases hsource

end TranscriptsJson

end MeetilyLocal
