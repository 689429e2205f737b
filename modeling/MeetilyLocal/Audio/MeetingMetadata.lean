import MeetilyLocal.Audio.TranscriptsJsonRoundTrip

/-!
# metadata.json

The embedding of `write_metadata` (`audio/common.rs`): an update is merged into the JSON object that
the file holds, and where there is no document to merge it into, another one is written in full.

A document that is not an object is neither merged into nor replaced: it is written back as it was,
and the update is lost without an error (`not_mergeLaw_array`). The full document is written as it
is given, so that it has the update exactly if its author has put that into it (`mergeLaw_iff`).
-/

namespace MeetilyLocal

open Json

/-- Which device names were used to capture a recording. -/
structure DeviceInfo : Type where
  /-- the microphone -/
  microphone : Option String
  /-- the system audio -/
  systemAudio : Option String

/-- Canonical metadata.json schema; a caller sets the fields it knows about. -/
structure MeetingMetadata : Type where
  /-- version of the schema -/
  version : Option String := none
  /-- the meeting -/
  meetingId : Option String := none
  /-- its name -/
  meetingName : Option String := none
  /-- when it was created -/
  createdAt : Option String := none
  /-- when it was completed -/
  completedAt : Option String := none
  /-- when it was transcribed again -/
  retranscribedAt : Option String := none
  /-- how long it is -/
  durationSeconds : Option Float := none
  /-- what captured it -/
  devices : Option DeviceInfo := none
  /-- the audio file -/
  audioFile : Option String := none
  /-- the transcript file -/
  transcriptFile : Option String := none
  /-- the sample rate of the audio -/
  sampleRate : Option UInt32 := none
  /-- `recording` or `completed` -/
  status : Option String := none
  /-- which pipeline produced the transcript -/
  origin : Option String := none
  /-- when the transcript was upgraded in the background -/
  autoRefinedAt : Option String := none

namespace MeetingMetadata

/-- Device names as a value. -/
def deviceValue (devices : DeviceInfo) : Value :=
  .object (ofEntries [
    ("microphone", .ofOption .string devices.microphone),
    ("system_audio", .ofOption .string devices.systemAudio)])

/-- The entries of the fields that are set. -/
def entries (m : MeetingMetadata) : List (String × Value) :=
  let obj := insertSome "version" .string m.version []
  let obj := insertSome "meeting_id" .string m.meetingId obj
  let obj := insertSome "meeting_name" .string m.meetingName obj
  let obj := insertSome "created_at" .string m.createdAt obj
  let obj := insertSome "completed_at" .string m.completedAt obj
  let obj := insertSome "retranscribed_at" .string m.retranscribedAt obj
  let obj := insertSome "duration_seconds" .ofFloat m.durationSeconds obj
  let obj := insertSome "devices" deviceValue m.devices obj
  let obj := insertSome "audio_file" .string m.audioFile obj
  let obj := insertSome "transcript_file" .string m.transcriptFile obj
  let obj := insertSome "sample_rate"
    (fun rate : UInt32 => .number (.posInt rate.toUInt64)) m.sampleRate obj
  let obj := insertSome "status" .string m.status obj
  let obj := insertSome "origin" .string m.origin obj
  insertSome "auto_refined_at" .string m.autoRefinedAt obj

theorem ordered_entries (m : MeetingMetadata) : Ordered m.entries := by
  unfold entries
  repeat' apply ordered_insertSome
  exact List.Pairwise.nil

/-! ## Writing -/

/-- `metadata.json` -/
def metadataFilename : FileName :=
  ['m', 'e', 't', 'a', 'd', 'a', 't', 'a', '.', 'j', 's', 'o', 'n']

/-- `.metadata.json.tmp` -/
def metadataTempFilename : FileName := '.' :: metadataFilename ++ ['.', 't', 'm', 'p']

/-- The document in the file. -/
def readMetadata (codec : JsonCodec) (files : Directory) : Except String Value :=
  match files.readToString metadataFilename with
  | .error message => .error message
  | .ok contents => codec.fromStr contents

/-- The document that is written for what the file holds. -/
def document (updates fallback : MeetingMetadata) : Except String Value → Value
  | .ok (.object obj) => .object (merge obj updates.entries)
  | .ok other => other
  | .error _ => .object fallback.entries

theorem document_of_not_object {updates fallback : MeetingMetadata} {value : Value}
    (h : ¬∃ old, value = .object old) : document updates fallback (.ok value) = value := by
  cases value with
  | object old => exact absurd ⟨old, rfl⟩ h
  | _ => rfl

/-- Write (or merge into) metadata.json. -/
def writeMetadata (codec : JsonCodec) (files : Directory) (updates fallback : MeetingMetadata)
    (write : WriteOutcome) (rename : RenameOutcome) : Except String Unit × Directory :=
  match codec.toStringPretty (document updates fallback (readMetadata codec files)) with
  | .error message => (.error message, files)
  | .ok text =>
    match files.write metadataTempFilename (Utf8.encode text) write with
    | (.error message, files) => (.error message, files)
    | (.ok (), files) => files.rename metadataTempFilename metadataFilename rename

/-- What is in the file after it was written. -/
theorem readMetadata_of_ok {codec : JsonCodec} {files files' : Directory}
    {updates fallback : MeetingMetadata} {write : WriteOutcome} {rename : RenameOutcome}
    (hkeeps : codec.Keeps (document updates fallback (readMetadata codec files)))
    (h : writeMetadata codec files updates fallback write rename = (.ok (), files')) :
    readMetadata codec files' =
      .ok ((document updates fallback (readMetadata codec files)).mapFloat codec.float64) := by
  obtain ⟨text, hprint, hread⟩ := hkeeps
  rw [writeMetadata, hprint] at h
  have hne : metadataFilename ≠ metadataTempFilename := by decide
  have hbytes : files' metadataFilename = some (Utf8.encode text) := by
    rcases write with _ | ⟨message, _ | n⟩
    · rcases rename with _ | message
      · obtain ⟨-, rfl⟩ := Prod.mk.inj h
        simp [Function.update_of_ne hne]
      · cases (Prod.mk.inj h).1
    · cases (Prod.mk.inj h).1
    · cases (Prod.mk.inj h).1
  have htext : files'.readToString metadataFilename = .ok text := by
    simp [Directory.readToString, hbytes, Utf8.decode_encode]
  rw [readMetadata, htext]
  exact hread

/-! ## The merge law -/

/-- The file is an object in which the update has been made, and an object that was there before has
kept its other entries. Floats are as they read back. -/
structure MergeLaw (codec : JsonCodec) (updates : MeetingMetadata) (before after : Except String Value)
    (obj : List (String × Value)) : Prop where
  /-- it is an object -/
  object : after = .ok (.object obj)
  /-- each field of the update has its value -/
  updated : ∀ {key value}, updates.entries.lookup key = some value →
    obj.lookup key = some (value.mapFloat codec.float64)
  /-- every other key is unchanged -/
  kept : ∀ {old}, before = .ok (.object old) → ∀ {key}, updates.entries.lookup key = none →
    obj.lookup key = (old.lookup key).map (Value.mapFloat codec.float64)

/-- The full document has the fields of the update. -/
def Fuller (codec : JsonCodec) (updates fallback : MeetingMetadata) : Prop :=
  ∀ {key value}, updates.entries.lookup key = some value →
    (fallback.entries.lookup key).map (Value.mapFloat codec.float64) =
      some (value.mapFloat codec.float64)

/-- **The merge law** holds where there is an object to merge into, and where there is no document and
the full one has the update. -/
theorem mergeLaw_iff {codec : JsonCodec} {files files' : Directory}
    {updates fallback : MeetingMetadata} {write : WriteOutcome} {rename : RenameOutcome}
    (hkeeps : codec.Keeps (document updates fallback (readMetadata codec files)))
    (h : writeMetadata codec files updates fallback write rename = (.ok (), files')) :
    (∃ obj, MergeLaw codec updates (readMetadata codec files) (readMetadata codec files') obj) ↔
      (∃ old, readMetadata codec files = .ok (.object old)) ∨
        (∃ message, readMetadata codec files = .error message) ∧ Fuller codec updates fallback := by
  rw [readMetadata_of_ok hkeeps h]
  cases hbefore : readMetadata codec files with
  | error message =>
    rw [document, Value.mapFloat]
    constructor
    · rintro ⟨obj, hobject, hupdated, -⟩
      obtain rfl := Value.object.inj (Except.ok.inj hobject)
      refine .inr ⟨⟨message, rfl⟩, fun hset => ?_⟩
      rw [← lookup_mapFloatObject]
      exact hupdated hset
    · rintro (⟨old, hold⟩ | ⟨-, hfuller⟩)
      · cases hold
      · refine ⟨_, rfl, fun hset => ?_, fun herror => by cases herror⟩
        rw [lookup_mapFloatObject]
        exact hfuller hset
  | ok value =>
    by_cases hobject : ∃ old, value = .object old
    · obtain ⟨old, rfl⟩ := hobject
      refine iff_of_true ⟨mapFloatObject codec.float64 (merge old updates.entries), rfl, ?_, ?_⟩
        (.inl ⟨old, rfl⟩)
      · intro key value hset
        rw [lookup_mapFloatObject, lookup_merge updates.ordered_entries, hset, Option.some_or,
          Option.map_some]
      · rintro _ ⟨rfl⟩ key hunset
        rw [lookup_mapFloatObject, lookup_merge updates.ordered_entries, hunset, Option.none_or]
    · -- it is written back, and still is no object
      refine iff_of_false ?_ ?_
      · rintro ⟨obj, hafter, -, -⟩
        rw [document_of_not_object hobject] at hafter
        exact hobject (exists_eq_object (Except.ok.inj hafter))
      · rintro (⟨old, hold⟩ | ⟨⟨message, herror⟩, -⟩)
        · exact hobject ⟨old, Except.ok.inj hold⟩
        · cases herror

/-! ### Two updates -/

/-- The update of a retranscription. -/
def retranscribed : MeetingMetadata where
  retranscribedAt := some "2026-01-01T00:00:00+00:00"
  transcriptFile := some "transcripts.json"
  status := some "completed"
  origin := some "retranscription"

/-- What was recorded before. -/
def recordedEntries : List (String × Value) :=
  [("meeting_name", .string "Standup"), ("status", .string "recording")]

/-- The text of that. -/
def recordedText : List Char := "\x7b
  \"meeting_name\": \"Standup\",
  \"status\": \"recording\"
\x7d".toList

/-- The text of what the update makes of it. -/
def updatedText : List Char := "\x7b
  \"meeting_name\": \"Standup\",
  \"origin\": \"retranscription\",
  \"retranscribed_at\": \"2026-01-01T00:00:00+00:00\",
  \"status\": \"completed\",
  \"transcript_file\": \"transcripts.json\"
\x7d".toList

theorem recordedText_ne : recordedText ≠ updatedText :=
  fun h => absurd (String.toList_injective h) (by simp)

/-- A codec on two documents alone, of which it prints the second. -/
def metadataCodec (text : List Char) (value : Value) (text' : List Char) (value' : Value) :
    JsonCodec where
  toStringPretty _ := .ok text'
  fromStr contents :=
    if contents = text' then .ok value'
    else if contents = text then .ok value
    else .error "expected value"
  float64 x := x
  fromValueError _ := "expected value"

/-- A codec on what was recorded and what the update makes of it. -/
abbrev recordedCodec : JsonCodec :=
  metadataCodec recordedText (.object recordedEntries) updatedText
    (.object (merge recordedEntries retranscribed.entries))

/-- A codec on an empty array. -/
abbrev arrayCodec : JsonCodec := metadataCodec "[]".toList (.array []) "[]".toList (.array [])

section

variable (text text' : List Char) (value value' : Value)

theorem keeps_metadataCodec : (metadataCodec text value text' value').Keeps value' :=
  ⟨text', rfl, (if_pos rfl).trans (congrArg Except.ok value'.mapFloat_id.symm)⟩

theorem fromStr_metadataCodec (h : text ≠ text') :
    (metadataCodec text value text' value').fromStr text = .ok value := by
  simp [metadataCodec, h]

end

/-- A folder whose metadata is a text. -/
def folderOf (contents : List Char) : Directory :=
  Function.update Directory.empty metadataFilename (some (Utf8.encode contents))

theorem readMetadata_folderOf (codec : JsonCodec) (contents : List Char) :
    readMetadata codec (folderOf contents) = codec.fromStr contents := by
  have htext : (folderOf contents).readToString metadataFilename = .ok contents := by
    simp [Directory.readToString, folderOf, Utf8.decode_encode]
  rw [readMetadata, htext]

/-- The folder after the update. -/
def updatedFolder (codec : JsonCodec) (contents : List Char) : Directory :=
  (writeMetadata codec (folderOf contents) retranscribed retranscribed .ok .ok).2

theorem writeMetadata_folderOf (text text' : List Char) (value value' : Value)
    (contents : List Char) :
    writeMetadata (metadataCodec text value text' value') (folderOf contents) retranscribed
      retranscribed .ok .ok = (.ok (), updatedFolder (metadataCodec text value text' value') contents) :=
  rfl

/-- The status of the recording is updated, and its name is kept. -/
theorem mergeLaw_recorded :
    ∃ obj, MergeLaw recordedCodec retranscribed (readMetadata recordedCodec (folderOf recordedText))
      (readMetadata recordedCodec (updatedFolder recordedCodec recordedText)) obj := by
  have hbefore : readMetadata recordedCodec (folderOf recordedText) =
      .ok (.object recordedEntries) := by
    rw [readMetadata_folderOf]
    exact fromStr_metadataCodec _ _ _ _ recordedText_ne
  refine (mergeLaw_iff ?_ (writeMetadata_folderOf _ _ _ _ _)).mpr (.inl ⟨recordedEntries, hbefore⟩)
  rw [hbefore]
  exact keeps_metadataCodec _ _ _ _

/-- An array is written back as it was. -/
theorem not_mergeLaw_array :
    ¬∃ obj, MergeLaw arrayCodec retranscribed (readMetadata arrayCodec (folderOf "[]".toList))
      (readMetadata arrayCodec (updatedFolder arrayCodec "[]".toList)) obj := by
  have hbefore : readMetadata arrayCodec (folderOf "[]".toList) = .ok (.array []) := by
    rw [readMetadata_folderOf]
    rfl
  have hkeeps : arrayCodec.Keeps (document retranscribed retranscribed
      (readMetadata arrayCodec (folderOf "[]".toList))) := by
    rw [hbefore]
    exact keeps_metadataCodec _ _ _ _
  have hafter := readMetadata_of_ok hkeeps (writeMetadata_folderOf _ _ _ _ _)
  rw [hbefore] at hafter
  rintro ⟨obj, hobject, -, -⟩
  rw [hafter] at hobject
  obtain ⟨old, hold⟩ := exists_eq_object (Except.ok.inj hobject)
  cases hold

end MeetingMetadata

end MeetilyLocal
