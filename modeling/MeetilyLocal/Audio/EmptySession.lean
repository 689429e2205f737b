import MeetilyLocal.Audio.IncrementalSaverFaults
import MeetilyLocal.Audio.TranscriptFreshness

/-!
# Discarding an empty session

The embedding of `discard_empty_session` (`audio/recording_saver.rs`), with what a session does to
its folder up to then. A start that fails after the folder was created removes the folder again,
unless the session has captured something (`abort_failed_start`, `recording_manager.rs`).

Whether it has is told by what is on disk: by the names in `.checkpoints/`, and by the two transcript
files. What the saver still has in its buffer and what waits for the journal is not looked at, so
that the folder of a session with such data is removed (`not_keepsData_buffered`). The folder is
kept exactly if some data has got to the disk (`keepsData_iff`).
-/

namespace MeetilyLocal

open TranscriptJournal TranscriptsJson

/-- A recording session, from the creation of its folder on. -/
structure RecordingSession : Type where
  /-- `meeting_folder` is set, and with it the journal writer -/
  meetingFolder : Bool
  /-- the transcript files of the folder -/
  folder : TrackedFolder
  /-- the folder has been removed -/
  removed : Bool
  /-- the incremental saver and `.checkpoints/`, if audio is saved -/
  audio : Option (IncrementalAudioSaver × Directory)
  /-- what is in the channel of the accumulation task -/
  chunks : List (List Sample)
  /-- what is in the channel of the journal writer -/
  journalQueue : List TranscriptSegment
  /-- `transcript_segments` -/
  transcriptSegments : List TranscriptSegment
  /-- transcripts.json is to be rebuilt -/
  dirty : Bool
  /-- the samples that were ever sent to the saver -/
  acceptedSamples : List Sample
  /-- the segments that were ever added -/
  acceptedSegments : List TranscriptSegment

namespace RecordingSession

/-- A session after `start_accumulation`. -/
def start (meetingFolder autoSave : Bool) : RecordingSession where
  meetingFolder := meetingFolder
  folder := .new
  removed := false
  audio :=
    if meetingFolder && autoSave then some (IncrementalAudioSaver.fresh "meeting" 48000 2) else none
  chunks := []
  journalQueue := []
  transcriptSegments := []
  dirty := false
  acceptedSamples := []
  acceptedSegments := []

variable (serde : Serde) (codec : JsonCodec) (st : RecordingSession)

/-! ## Steps of a session -/

/-- The pipeline sends a chunk; without a saver it is discarded. -/
def sendChunk (chunk : List Sample) : RecordingSession :=
  if st.audio.isSome then
    { st with chunks := st.chunks ++ [chunk], acceptedSamples := st.acceptedSamples ++ chunk }
  else st

/-- The accumulation task receives a chunk; an error is only logged. -/
def accumulate (chunk : List Sample) (rest : List (List Sample)) (outcome : SaveOutcome) :
    RecordingSession :=
  { st with
    chunks := rest
    audio := st.audio.map fun audio => (audio.1.addChunk audio.2 chunk outcome).2 }

/-- `add_transcript_segment` -/
def addTranscriptSegment (segment : TranscriptSegment) : RecordingSession :=
  { st with
    transcriptSegments := RecordingSaver.addTranscriptSegment segment st.transcriptSegments
    journalQueue := if st.meetingFolder then st.journalQueue ++ [segment] else st.journalQueue
    acceptedSegments := st.acceptedSegments ++ [segment] }

/-- The journal writer receives a segment; an error is only logged. -/
def journal (now : ℕ) (segment : TranscriptSegment) (rest : List TranscriptSegment)
    (outcome : WriteOutcome) : RecordingSession :=
  { st with
    journalQueue := rest
    folder := st.folder.append serde now segment outcome
    dirty := true }

/-- The debounced rebuild of transcripts.json. -/
def rebuild (now : ℕ) (lastUpdated : String) (write : WriteOutcome) (rename : RenameOutcome) :
    RecordingSession :=
  { st with
    folder := st.folder.rewrite codec now (sortSegmentsChronologically st.transcriptSegments)
      lastUpdated write rename false
    dirty := false }

/-- What can happen next. -/
inductive Step : RecordingSession → RecordingSession → Prop where
  /-- a chunk is sent -/
  | sendChunk {st : RecordingSession} (chunk : List Sample) : Step st (st.sendChunk chunk)
  /-- a chunk is received -/
  | accumulate {st : RecordingSession} {chunk : List Sample} {rest : List (List Sample)}
      (hchunks : st.chunks = chunk :: rest) (outcome : SaveOutcome) :
      Step st (st.accumulate chunk rest outcome)
  /-- a segment is added -/
  | addTranscriptSegment {st : RecordingSession} (segment : TranscriptSegment) :
      Step st (st.addTranscriptSegment segment)
  /-- a segment is journaled -/
  | journal {st : RecordingSession} {segment : TranscriptSegment} {rest : List TranscriptSegment}
      (hqueue : st.journalQueue = segment :: rest) (now : ℕ) (outcome : WriteOutcome) :
      Step st (st.journal serde now segment rest outcome)
  /-- transcripts.json is rebuilt -/
  | rebuild {st : RecordingSession} (hdirty : st.dirty = true) (now : ℕ) (lastUpdated : String)
      (write : WriteOutcome) (rename : RenameOutcome) :
      Step st (st.rebuild codec now lastUpdated write rename)

/-- Any number of steps. -/
def Reaches : RecordingSession → RecordingSession → Prop := Relation.ReflTransGen (Step serde codec)

/-! ## Discarding -/

/-- What the outside decides about a discard. -/
structure DiscardEnv : Type where
  /-- the entries of `.checkpoints/` that can be read -/
  readDir : Except String (List FileName)
  /-- the order of the hash map of a replay -/
  order : IterationOrder
  /-- the folder can be removed -/
  removes : Bool

/-- The file has the name of audio that was captured: its stem starts with `audio_chunk_`. -/
def isAudioChunk (file : FileName) : Bool :=
  (file.fileStem.map fun stem => checkpointPrefix.isPrefixOf stem).getD false

/-- There is a checkpoint. -/
def hasCheckpointAudio : Except String (List FileName) → Bool
  | .ok entries => entries.any isAudioChunk
  | .error _ => false

/-- The discard decision. -/
def sessionIsEmpty (env : DiscardEnv) (folder : MeetingFolder) : Bool :=
  if hasCheckpointAudio env.readDir then false
  else
    match loadTranscriptsFromFolder serde codec env.order folder with
    | .ok segments => segments.isEmpty
    | .error _ => false

/-- Discard the session's meeting folder if it was created but never actually captured anything. -/
def discardEmptySession (env : DiscardEnv) : Bool × RecordingSession :=
  if !st.meetingFolder then (false, st)
  else if !sessionIsEmpty serde codec env st.folder.folder then (false, st)
  else (true, { st with
    removed := env.removes
    meetingFolder := false
    audio := none
    journalQueue := []
    transcriptSegments := [] })

/-- The folder is removed only if the session has accepted nothing. -/
def KeepsData (env : DiscardEnv) : Prop :=
  (st.discardEmptySession serde codec env).2.removed = true →
    st.acceptedSamples = [] ∧ st.acceptedSegments = []

/-! ## What there is on disk -/

/-- The journal cannot be read, or has a line that is a segment. -/
def JournalHolds (files : Directory) : Prop :=
  match files.readToString transcriptsJournalFilename with
  | .error _ => True
  | .ok contents => ∃ line ∈ lines contents, trim line ≠ [] ∧
      ∃ segment, serde.fromStr (trim line) = .ok segment

/-- The transcript files hold a segment, or one of them cannot be read: transcripts.json, or the
journal, or transcripts.json again if the journal is not newer. -/
inductive HoldsTranscript (folder : MeetingFolder) : Prop where
  /-- transcripts.json cannot be read -/
  | corrupt {message : String} (hexists : folder.files transcriptsJsonFilename ≠ none)
      (hread : readTranscriptsJson codec folder.files = .error message) : HoldsTranscript folder
  /-- the journal has something -/
  | journal (hexists : folder.files transcriptsJournalFilename ≠ none)
      (hholds : JournalHolds serde folder.files) : HoldsTranscript folder
  /-- transcripts.json has something -/
  | json {segments : List TranscriptSegment}
      (hexists : folder.files transcriptsJsonFilename ≠ none)
      (hread : readTranscriptsJson codec folder.files = .ok segments) (hne : segments ≠ [])
      (hnewest : folder.files transcriptsJournalFilename = none ∨ journalNewer folder = false) :
      HoldsTranscript folder

/-- A checkpoint is listed, be it finished or not. -/
def HoldsAudio (readDir : Except String (List FileName)) : Prop :=
  ∃ entries, readDir = .ok entries ∧ ∃ n, checkpointName n ∈ entries ∨ partialName n ∈ entries

/-- Nothing was accepted. -/
def AcceptedNothing : Prop := st.acceptedSamples = [] ∧ st.acceptedSegments = []

variable {serde codec st} {st' : RecordingSession} {env : DiscardEnv}

theorem isAudioChunk_checkpointName (n : ℕ) : isAudioChunk (checkpointName n) = true := by
  rw [isAudioChunk, fileStem_checkpointName]
  simp [checkpointStem]

theorem isAudioChunk_partialName (n : ℕ) : isAudioChunk (partialName n) = true := by
  have hstem : (partialName n).fileStem = some (checkpointStem n ++ '.' :: checkpointExtension) := by
    rw [partialName_eq]
    exact FileName.fileStem_append (by simp) (by decide) (by decide)
  rw [isAudioChunk, hstem]
  simp [checkpointStem]

/-- A file of `.checkpoints/` is the sidecar, a checkpoint, or a checkpoint that is being written. -/
def IsSaverFile (file : FileName) : Prop :=
  file = checkpointFormatFile ∨ ∃ n, file = checkpointName n ∨ file = partialName n

/-- There are no other files. -/
def SaverFilesOnly (dir : Directory) : Prop := ∀ file, dir file ≠ none → IsSaverFile file

theorem saverFilesOnly_fresh (meetingFolder : String) (sampleRate channels : ℕ) :
    SaverFilesOnly (IncrementalAudioSaver.fresh meetingFolder sampleRate channels).2 := by
  intro file hfile
  by_cases hformat : file = checkpointFormatFile
  · exact .inl hformat
  · rw [IncrementalAudioSaver.fresh, Directory.write_of_ne hformat] at hfile
    exact absurd rfl hfile

theorem SaverFilesOnly.saveCheckpoint {saver : IncrementalAudioSaver} {dir : Directory}
    (h : SaverFilesOnly dir) (outcome : SaveOutcome) :
    SaverFilesOnly (saver.saveCheckpoint dir outcome).2.2 := by
  rcases saver.saveCheckpoint_cases dir outcome with
    ⟨message, dir', heq, hsame⟩ | ⟨-, heq⟩ | ⟨-, dir', heq, -, hsame⟩
  · rw [heq]
    intro file hfile
    by_cases hpart : file = partialName saver.checkpointCount
    · exact .inr ⟨_, .inr hpart⟩
    · exact h file (hsame file hpart ▸ hfile)
  · rw [heq]
    exact h
  · rw [heq]
    intro file hfile
    by_cases hpart : file = partialName saver.checkpointCount
    · exact .inr ⟨_, .inr hpart⟩
    · by_cases hname : file = checkpointName saver.checkpointCount
      · exact .inr ⟨_, .inl hname⟩
      · exact h file (hsame file hname hpart ▸ hfile)

theorem SaverFilesOnly.addChunk {saver : IncrementalAudioSaver} {dir : Directory}
    (h : SaverFilesOnly dir) (chunk : List Sample) (outcome : SaveOutcome) :
    SaverFilesOnly (saver.addChunk dir chunk outcome).2.2 := by
  have hclear : ∀ saver : IncrementalAudioSaver,
      SaverFilesOnly (saver.saveAndClear dir outcome).2.2 := by
    intro saver
    have hsave : SaverFilesOnly (saver.saveCheckpoint dir outcome).2.2 := h.saveCheckpoint outcome
    rw [IncrementalAudioSaver.saveAndClear]
    split
    all_goals
      next heq =>
        rw [heq] at hsave
        exact hsave
  rw [IncrementalAudioSaver.addChunk]
  split
  · exact hclear _
  · exact h

/-- What holds of a session at any time. -/
structure Tracks (st : RecordingSession) : Prop where
  /-- the folder is there -/
  present : st.removed = false
  /-- the checkpoints directory has files of the saver only -/
  files : ∀ audio, st.audio = some audio → SaverFilesOnly audio.2

theorem tracks_start (meetingFolder autoSave : Bool) : Tracks (start meetingFolder autoSave) := by
  refine ⟨rfl, fun audio haudio => ?_⟩
  rw [start] at haudio
  split at haudio
  · exact Option.some.inj haudio ▸ saverFilesOnly_fresh _ _ _
  · cases haudio

theorem Tracks.step (h : Tracks st) (hstep : Step serde codec st st') : Tracks st' := by
  cases hstep with
  | sendChunk chunk =>
    rw [RecordingSession.sendChunk]
    split
    · exact ⟨h.present, h.files⟩
    · exact h
  | accumulate _ outcome =>
    refine ⟨h.present, fun audio haudio => ?_⟩
    obtain ⟨before, hbefore, rfl⟩ := Option.map_eq_some_iff.mp haudio
    exact (h.files before hbefore).addChunk _ outcome
  | addTranscriptSegment segment => exact ⟨h.present, h.files⟩
  | journal _ now outcome => exact ⟨h.present, h.files⟩
  | rebuild _ now lastUpdated write rename => exact ⟨h.present, h.files⟩

theorem Tracks.reaches (h : Tracks st) (hreach : Reaches serde codec st st') : Tracks st' := by
  induction hreach with
  | refl => exact h
  | tail _ hstep ih => exact ih.step hstep

/-! ## The decision -/

/-- The files that a listing of `.checkpoints/` names are there. -/
def ReadsDir (st : RecordingSession) (env : DiscardEnv) : Prop :=
  ∀ entries, env.readDir = .ok entries → ∀ file ∈ entries,
    ∃ audio, st.audio = some audio ∧ audio.2 file ≠ none

/-- **The names tell** whether audio has got to the disk. -/
theorem hasCheckpointAudio_iff (h : Tracks st) (hread : ReadsDir st env) :
    hasCheckpointAudio env.readDir = true ↔ HoldsAudio env.readDir := by
  cases hdir : env.readDir with
  | error message => simp [hasCheckpointAudio, HoldsAudio]
  | ok entries =>
    rw [hasCheckpointAudio, List.any_eq_true, HoldsAudio]
    constructor
    · rintro ⟨file, hfile, haudio⟩
      obtain ⟨audio, hsome, hexists⟩ := hread entries hdir file hfile
      rcases h.files audio hsome file hexists with rfl | ⟨n, rfl | rfl⟩
      · exact absurd haudio (by decide)
      · exact ⟨entries, rfl, n, .inl hfile⟩
      · exact ⟨entries, rfl, n, .inr hfile⟩
    · rintro ⟨_, ⟨rfl⟩, n, hfile | hfile⟩
      · exact ⟨_, hfile, isAudioChunk_checkpointName n⟩
      · exact ⟨_, hfile, isAudioChunk_partialName n⟩

theorem insertByKey_ne_nil (byKey : List (String × TranscriptSegment)) (key : String)
    (segment : TranscriptSegment) : insertByKey byKey key segment ≠ [] := by
  simp [insertByKey]

/-- A line leaves the map empty if it was and the line is no segment. -/
theorem replayLine_eq_nil_iff (byKey : List (String × TranscriptSegment)) (line : List Char) :
    replayLine serde byKey line = [] ↔ byKey = [] ∧
      ¬(trim line ≠ [] ∧ ∃ segment, serde.fromStr (trim line) = .ok segment) := by
  rw [replayLine]
  split
  · next hempty => simp [List.isEmpty_iff.mp hempty]
  · next hfull =>
    have hne : trim line ≠ [] := by simpa using hfull
    split
    · next segment hsegment => simp [insertByKey_ne_nil, hne, hsegment]
    · next message herror => simp [hne, herror]

theorem foldl_replayLine_eq_nil_iff (byKey : List (String × TranscriptSegment))
    (journalLines : List (List Char)) :
    journalLines.foldl (replayLine serde) byKey = [] ↔ byKey = [] ∧ ¬∃ line ∈ journalLines,
      trim line ≠ [] ∧ ∃ segment, serde.fromStr (trim line) = .ok segment := by
  induction journalLines generalizing byKey with
  | nil => simp
  | cons line journalLines ih =>
    rw [List.foldl_cons, ih, replayLine_eq_nil_iff, List.exists_mem_cons_iff, not_or, and_assoc]

/-- A replay finds nothing if the journal has nothing. -/
theorem replay_eq_nil_iff (order : IterationOrder) (files : Directory) :
    replayTranscriptJournal serde order files = .ok [] ↔ ¬JournalHolds serde files := by
  rw [replayTranscriptJournal, JournalHolds]
  cases files.readToString transcriptsJournalFilename with
  | error message => simp
  | ok contents =>
    have hnil : (lines contents).foldl (replayLine serde) [] = [] ↔ _ :=
      foldl_replayLine_eq_nil_iff [] (lines contents)
    rw [eq_self_iff_true, true_and] at hnil
    have hlength : (sortSegmentsChronologically (order.arrange
        (((lines contents).foldl (replayLine serde) []).map Prod.snd))).length =
        ((lines contents).foldl (replayLine serde) []).length := by
      rw [sortSegmentsChronologically, List.length_mergeSort, (order.perm _).length_eq,
        List.length_map]
    simp only [Except.ok.injEq]
    rw [← hnil, ← List.length_eq_zero_iff, hlength, List.length_eq_zero_iff]

theorem holdsTranscript_iff {folder : MeetingFolder} : HoldsTranscript serde codec folder ↔
    (folder.files transcriptsJournalFilename ≠ none ∧ JournalHolds serde folder.files) ∨
      (folder.files transcriptsJsonFilename ≠ none ∧
        match readTranscriptsJson codec folder.files with
        | .error _ => True
        | .ok segments => segments ≠ [] ∧
          (folder.files transcriptsJournalFilename = none ∨ journalNewer folder = false)) := by
  constructor
  · rintro (⟨hexists, hread⟩ | ⟨hexists, hholds⟩ | ⟨hexists, hread, hne, hnewest⟩)
    · exact .inr ⟨hexists, by rw [hread]; trivial⟩
    · exact .inl ⟨hexists, hholds⟩
    · exact .inr ⟨hexists, by rw [hread]; exact ⟨hne, hnewest⟩⟩
  · rintro (⟨hexists, hholds⟩ | ⟨hexists, hjson⟩)
    · exact .journal hexists hholds
    · cases hread : readTranscriptsJson codec folder.files with
      | error message => exact .corrupt hexists hread
      | ok segments =>
        rw [hread] at hjson
        exact .json hexists hread hjson.1 hjson.2

/-- **The two files tell** whether a segment has. -/
theorem load_eq_nil_iff (order : IterationOrder) {folder : MeetingFolder} :
    loadTranscriptsFromFolder serde codec order folder = .ok [] ↔
      ¬HoldsTranscript serde codec folder := by
  have hreplay : _ ↔ ¬JournalHolds serde folder.files := replay_eq_nil_iff order folder.files
  rw [holdsTranscript_iff, loadTranscriptsFromFolder]
  cases hjson : folder.files transcriptsJsonFilename with
  | none =>
    cases hjournal : folder.files transcriptsJournalFilename with
    | none => simp
    | some bytes =>
      cases hresult : replayTranscriptJournal serde order folder.files with
      | error message => simpa [hresult] using hreplay
      | ok journalSegments => simpa [hresult] using hreplay
  | some bytes =>
    cases hread : readTranscriptsJson codec folder.files with
    | error message => simp
    | ok jsonSegments =>
      cases hjournal : folder.files transcriptsJournalFilename with
      | none => simp
      | some bytes =>
        cases hresult : replayTranscriptJournal serde order folder.files with
        | error message =>
          rw [hresult] at hreplay
          simpa using fun hnot => absurd (hreplay.mpr hnot) (by simp)
        | ok journalSegments =>
          rw [hresult, Except.ok.injEq, ← not_iff_not, not_not] at hreplay
          rw [← hreplay]
          -- an empty journal is taken only if it is newer
          cases hnewer : journalNewer folder with
          | true => simp
          | false =>
            by_cases hmore : jsonSegments.length < journalSegments.length
            · have hne : journalSegments ≠ [] := List.ne_nil_of_length_pos (by omega)
              simp [hmore, hne]
            · have hle : journalSegments.length ≤ jsonSegments.length := Nat.not_lt.mp hmore
              have hnil : jsonSegments = [] → journalSegments = [] := by
                rintro rfl
                exact List.length_eq_zero_iff.mp (Nat.le_zero.mp hle)
              simpa [hmore] using hnil

/-- When the folder is removed. -/
theorem removed_discardEmptySession_iff (h : Tracks st) (hread : ReadsDir st env) :
    (st.discardEmptySession serde codec env).2.removed = true ↔
      st.meetingFolder = true ∧ env.removes = true ∧ ¬HoldsAudio env.readDir ∧
        ¬HoldsTranscript serde codec st.folder.folder := by
  have hempty : sessionIsEmpty serde codec env st.folder.folder = true ↔
      ¬HoldsAudio env.readDir ∧ ¬HoldsTranscript serde codec st.folder.folder := by
    rw [← hasCheckpointAudio_iff h hread, ← load_eq_nil_iff env.order, sessionIsEmpty]
    cases hasCheckpointAudio env.readDir with
    | true => simp
    | false =>
      cases loadTranscriptsFromFolder serde codec env.order st.folder.folder <;> simp
  rw [← hempty, discardEmptySession]
  cases st.meetingFolder with
  | false => simp [h.present]
  | true =>
    cases sessionIsEmpty serde codec env st.folder.folder with
    | false => simp [h.present]
    | true => simp

/-- **Data that is on disk keeps the folder**, and no other data does. -/
theorem keepsData_iff {meetingFolder autoSave : Bool}
    (hreach : Reaches serde codec (start meetingFolder autoSave) st) (hread : ReadsDir st env) :
    KeepsData serde codec st env ↔
      AcceptedNothing st ∨ HoldsAudio env.readDir ∨ HoldsTranscript serde codec st.folder.folder ∨
        st.meetingFolder = false ∨ env.removes = false := by
  have htracks := (tracks_start meetingFolder autoSave).reaches hreach
  rw [KeepsData, removed_discardEmptySession_iff htracks hread, ← Bool.not_eq_true,
    ← Bool.not_eq_true, AcceptedNothing]
  tauto

/-- A session with one segment, which is in the journal. -/
def journaledSession : RecordingSession :=
  ((start true true).addTranscriptSegment accented).journal accentedSerde 1 accented [] .ok

/-- `.checkpoints/` has the sidecar only, and the folder can be removed. -/
def sidecarOnly : DiscardEnv := ⟨.ok [checkpointFormatFile], insertionOrder, true⟩

theorem readsDir_sidecarOnly {st : RecordingSession} {saver : IncrementalAudioSaver}
    {dir : Directory} (haudio : st.audio = some (saver, dir)) (hdir : dir checkpointFormatFile ≠ none) :
    ReadsDir st sidecarOnly := by
  rintro _ ⟨rfl⟩ file hfile
  obtain rfl := List.mem_singleton.mp hfile
  exact ⟨_, haudio, hdir⟩

theorem keepsData_journaled : KeepsData accentedSerde accentedCodec journaledSession sidecarOnly := by
  have hreach : Reaches accentedSerde accentedCodec (start true true) journaledSession :=
    .head (.addTranscriptSegment accented) (.single (.journal rfl 1 .ok))
  have hbytes : journaledSession.folder.folder.files transcriptsJournalFilename =
      some (Utf8.encode (journalText accentedSerde [accented])) := rfl
  have hreplay := replayTranscriptJournal_eq accentedSerde_readsJson insertionOrder
    (by simpa using accentedSerde_keeps) hbytes
  have hholds : JournalHolds accentedSerde journaledSession.folder.folder.files := by
    by_contra hnone
    rw [(replay_eq_nil_iff _ _).mpr hnone] at hreplay
    have hlength := congrArg List.length (Except.ok.inj hreplay)
    simp [sortSegmentsChronologically, insertionOrder, lastWrites] at hlength
  refine (keepsData_iff hreach (readsDir_sidecarOnly rfl (by decide))).mpr (.inr (.inr (.inl ?_)))
  exact .journal (by simp [hbytes]) hholds

/-- A session with a sample in the buffer of the saver, and a segment that waits for the journal. -/
def bufferedSession : RecordingSession :=
  (((start true true).sendChunk [0x3f800000]).accumulate [0x3f800000] [] .ok).addTranscriptSegment
    accented

/-- **What is not on disk yet is lost** with the folder. -/
theorem not_keepsData_buffered :
    Reaches accentedSerde accentedCodec (start true true) bufferedSession ∧
    ReadsDir bufferedSession sidecarOnly ∧
    ¬KeepsData accentedSerde accentedCodec bufferedSession sidecarOnly := by
  refine ⟨?_, readsDir_sidecarOnly rfl (by decide), fun hkeeps => ?_⟩
  · exact .head (.sendChunk [0x3f800000]) (.head (.accumulate rfl .ok)
      (.single (.addTranscriptSegment accented)))
  · have hremoved : (bufferedSession.discardEmptySession accentedSerde accentedCodec
        sidecarOnly).2.removed = true := by decide +kernel
    have haccepted : bufferedSession.acceptedSamples = [0x3f800000] := rfl
    exact absurd (haccepted.symm.trans (hkeeps hremoved).1) (by simp)

end RecordingSession

end MeetilyLocal
