import MeetilyLocal.Audio.Import
import MeetilyLocal.Library.Decimal
import Mathlib.Data.List.Perm.Subperm

/-!
# What a failed import leaves

A failed import has saved nothing (`Import.db_of_error`), but the folder it created is only removed
at the checks for cancellation between its stages and where the batch fails. At every other exit it
stays, with the audio in it: where the file is not copied, decoded, resampled or searched for
speech, and that includes a cancellation that one of these finds in a progress report; where there
is no Whisper engine, and where the meeting is not saved. So a failed import leaves nothing exactly
if it fails before it has a folder, or at one of the former exits, and the folder can be removed
there (`Import.leavesNothing_iff`).
-/

namespace MeetilyLocal

open Exits

namespace Import

variable {env : ImportEnv} {request : ImportRequest} {before world after : ImportWorld}
  {meetingFolder : FileName} {point : CancelPoint} {message : String} {α : Type}

/-! ## The folder -/

theorem folderCandidate_injective (base : FileName) :
    Function.Injective (folderCandidate base) := by
  intro m n h
  cases m with
  | zero =>
    cases n with
    | zero => rfl
    | succ n => simp [folderCandidate] at h
  | succ m =>
    cases n with
    | zero => simp [folderCandidate] at h
    | succ n =>
      have hdigits : Nat.toDigits 10 (m + 1) = Nat.toDigits 10 (n + 1) := by
        simpa [folderCandidate] using h
      exact Decimal.repr_injective (congrArg String.ofList hdigits)

/-- One of the names that are tried is free. -/
theorem freeFolder_notMem (names : List FileName) (base : FileName) :
    freeFolder names base ∉ names := by
  let candidates := (List.range (names.length + 1)).map (folderCandidate base)
  have hfree : (candidates.find? (· ∉ names)).isSome := by
    rw [List.find?_isSome]
    by_contra hnone
    have hsub : candidates ⊆ names := by
      intro name hname
      by_contra hmem
      exact hnone ⟨name, hname, by simpa using hmem⟩
    have hnodup : candidates.Nodup := List.nodup_range.map (folderCandidate_injective base)
    have hlength := (List.subperm_of_subset hnodup hsub).length_le
    simp [candidates] at hlength
  obtain ⟨name, hname⟩ := Option.isSome_iff_exists.mp hfree
  have hmem := List.find?_some hname
  rw [freeFolder, hname]
  simpa using hmem

@[simp]
theorem names_modifyFolder (world : ImportWorld) (name : FileName)
    (f : MeetingFolder → MeetingFolder) : (world.modifyFolder name f).names = world.names := by
  simp only [ImportWorld.names, ImportWorld.modifyFolder, List.map_map]
  refine List.map_congr_left fun entry _ => ?_
  simp only [Function.comp_apply]
  split <;> rfl

@[simp]
theorem mem_names_removeDir {name name' : FileName} :
    name' ∈ (world.removeDir name).names ↔ name' ∈ world.names ∧ name' ≠ name := by
  simp only [ImportWorld.names, ImportWorld.removeDir, List.mem_map, List.mem_filter, bne_iff_ne]
  constructor
  · rintro ⟨entry, ⟨hentry, hne⟩, rfl⟩
    exact ⟨⟨entry, hentry, rfl⟩, hne⟩
  · rintro ⟨⟨entry, hentry, rfl⟩, hne⟩
    exact ⟨entry, ⟨hentry, hne⟩, rfl⟩

/-- An import has created its folder and saved nothing. -/
structure Underway (before : ImportWorld) (meetingFolder : FileName) (world : ImportWorld) :
    Prop where
  /-- the folder is a new one -/
  new : meetingFolder ∉ before.names
  /-- it is there -/
  names : world.names = meetingFolder :: before.names
  /-- nothing is saved -/
  db : world.db = before.db

/-- Nothing of an import is there: every folder, meeting and transcript was there before. -/
structure LeavesNothing (before after : ImportWorld) : Prop where
  /-- the meeting folders -/
  folder : ∀ name ∈ after.names, name ∈ before.names
  /-- the rows of `meetings` -/
  meeting : ∀ id ∈ after.db.meetings, id ∈ before.db.meetings
  /-- the rows of `transcripts` -/
  transcript : ∀ row ∈ after.db.transcripts, row ∈ before.db.transcripts

theorem leavesNothing_refl : LeavesNothing before before :=
  ⟨fun _ => id, fun _ => id, fun _ => id⟩

namespace Underway

theorem not_leavesNothing (h : Underway before meetingFolder world) :
    ¬LeavesNothing before world := by
  intro hnothing
  exact h.new (hnothing.folder meetingFolder (by simp [h.names]))

/-- What happens to the files of a folder does not matter. -/
theorem modifyFolder (h : Underway before meetingFolder world) (name : FileName)
    (f : MeetingFolder → MeetingFolder) :
    Underway before meetingFolder (world.modifyFolder name f) :=
  ⟨h.new, by simp [h.names], h.db⟩

/-- Without its folder nothing of it is there. -/
theorem removeDir (h : Underway before meetingFolder world) :
    LeavesNothing before (world.removeDir meetingFolder) := by
  have hdb : (world.removeDir meetingFolder).db = before.db := h.db
  refine ⟨?_, by simp [hdb], by simp [hdb]⟩
  intro name hname
  obtain ⟨hmem, hne⟩ := mem_names_removeDir.mp hname
  rw [h.names] at hmem
  exact List.mem_of_ne_of_mem hne hmem

end Underway

/-- A folder is created, or nothing happens. -/
theorem createMeetingFolder_cases (env : ImportEnv) (title : String) (before : ImportWorld) :
    (∃ message, env.createDir = some message ∧
      createMeetingFolder env title before = .error message before) ∨
    env.createDir = none ∧ ∃ meetingFolder world,
      createMeetingFolder env title before = .ok meetingFolder world ∧
        Underway before meetingFolder world := by
  rcases hcreate : env.createDir with _ | message
  · refine Or.inr ⟨rfl, _, _, by rw [createMeetingFolder, hcreate], ?_⟩
    exact ⟨freeFolder_notMem _ _, rfl, rfl⟩
  · exact Or.inl ⟨message, rfl, by rw [createMeetingFolder, hcreate]⟩

/-- Copying goes well. -/
def Copies (env : ImportEnv) : Prop := env.panics .copy = none ∧ env.copy = .ok

/-- However copying goes, the import is underway. -/
theorem copyAudio_cases (env : ImportEnv) (request : ImportRequest)
    (h : Underway before meetingFolder world) :
    (∃ message world', copyAudio env request meetingFolder world = .error message world' ∧
      ¬Copies env ∧ Underway before meetingFolder world') ∨
    ∃ world', copyAudio env request meetingFolder world = .ok () world' ∧ Copies env ∧
      Underway before meetingFolder world' := by
  unfold copyAudio
  rcases hpanic : env.panics .copy with _ | panic
  · rcases hcopy : env.copy with _ | ⟨message, _ | left⟩
    · exact Or.inr ⟨_, rfl, ⟨hpanic, hcopy⟩, h.modifyFolder _ _⟩
    · exact Or.inl ⟨_, _, rfl, by simp [Copies, hcopy], h.modifyFolder _ _⟩
    · exact Or.inl ⟨_, _, rfl, by simp [Copies, hcopy], h.modifyFolder _ _⟩
  · exact Or.inl ⟨_, _, rfl, by simp [Copies, hpanic], h⟩

/-- Where the folder is removed, an exit leaves nothing exactly if that succeeds. -/
theorem raises_remove_throw (h : Underway before meetingFolder world) :
    Raises (LeavesNothing before)
      (do removeMeetingFolder env meetingFolder; throw message : EStateM String ImportWorld α) world ↔
        env.removeDir = none := by
  rcases hremove : env.removeDir with _ | kept
  · have hremoved : removeMeetingFolder env meetingFolder world =
        .ok () (world.removeDir meetingFolder) := by rw [removeMeetingFolder, hremove]
    rw [raises_bind_of_ok hremoved, raises_throw]
    simp [h.removeDir]
  · have hkept : removeMeetingFolder env meetingFolder world =
        .ok () (world.modifyFolder meetingFolder fun folder =>
          ⟨fun file => if kept file then folder.files file else none, folder.modified⟩) := by
      rw [removeMeetingFolder, hremove]
    rw [raises_bind_of_ok hkept, raises_throw]
    simp [(h.modifyFolder meetingFolder _).not_leavesNothing]

/-! ## The database -/

theorem preserves_createMeetingFolder (title : String) :
    Preserves ImportWorld.db (createMeetingFolder env title) := by
  intro world
  unfold createMeetingFolder
  cases env.createDir with
  | none => exact ⟨by rintro _ _ ⟨⟩; rfl, by rintro _ _ ⟨⟩⟩
  | some message => exact ⟨by rintro _ _ ⟨⟩, by rintro _ _ ⟨⟩; rfl⟩

theorem preserves_removeMeetingFolder :
    Preserves ImportWorld.db (removeMeetingFolder env meetingFolder) := by
  intro world
  unfold removeMeetingFolder
  cases env.removeDir <;> exact ⟨by rintro _ _ ⟨⟩; rfl, by rintro _ _ ⟨⟩⟩

theorem preserves_checkCancelled :
    Preserves ImportWorld.db (checkCancelled env point meetingFolder) := by
  unfold checkCancelled
  split
  · exact preserves_removeMeetingFolder.bind fun _ => preserves_throw
  · exact preserves_pure

theorem preserves_copyAudio : Preserves ImportWorld.db (copyAudio env request meetingFolder) := by
  intro world
  unfold copyAudio
  cases env.panics .copy with
  | some panic => exact ⟨by rintro _ _ ⟨⟩, by rintro _ _ ⟨⟩; rfl⟩
  | none =>
    dsimp only
    split
    · exact ⟨by rintro _ _ ⟨⟩; rfl, by rintro _ _ ⟨⟩⟩
    · exact ⟨by rintro _ _ ⟨⟩, by rintro _ _ ⟨⟩; rfl⟩

theorem preserves_transcribeAll {speechSegments : List SpeechSegment} :
    Preserves ImportWorld.db (transcribeAll env speechSegments meetingFolder) := by
  unfold transcribeAll
  split
  · exact preserves_pure
  · exact preserves_removeMeetingFolder.bind fun _ => preserves_throw

/-- A meeting that is not saved is not in the database. -/
theorem raises_createMeeting {segments : List TranscriptSegment}
    {f : String → EStateM String ImportWorld ImportResult} (hworld : world.db = before.db)
    (hf : ∀ meetingId world', Raises (fun after => after.db = before.db) (f meetingId) world') :
    Raises (fun after => after.db = before.db)
      (createMeetingWithTranscripts env segments >>= f) world := by
  rw [raises_bind]
  refine ⟨?_, fun meetingId world' _ => hf meetingId world'⟩
  rcases hsave : TranscriptsRepository.saveTranscript env.sql world.db segments with
    message | ⟨meetingId, db⟩
  · have hfail : createMeetingWithTranscripts env segments world =
        .error ("Failed to create meeting: " ++ message) world := by
      rw [createMeetingWithTranscripts, hsave]
    exact (raises_iff_of_error hfail).mpr hworld
  · have hsaved : createMeetingWithTranscripts env segments world =
        .ok meetingId { world with db := db } := by
      rw [createMeetingWithTranscripts, hsave]
    exact raises_of_ok hsaved

/-- **A failed import has saved nothing.** -/
theorem db_of_error (h : runImport env request before = .error message after) :
    after.db = before.db := by
  suffices hraises : Raises (fun after => after.db = before.db) (runImport env request) before from
    hraises message after h
  unfold runImport
  refine raises_bind_of_preserves rfl preserves_failIf fun _ world h => ?_
  refine raises_bind_of_preserves h preserves_failIf fun _ world h => ?_
  refine raises_bind_of_preserves h (preserves_createMeetingFolder _) fun _ world h => ?_
  refine raises_bind_of_preserves h preserves_copyAudio fun _ world h => ?_
  refine raises_bind_of_preserves h preserves_checkCancelled fun _ world h => ?_
  refine raises_bind_of_preserves h (preserves_lift _) fun decoded world h => ?_
  refine raises_bind_of_preserves h preserves_checkCancelled fun _ world h => ?_
  refine raises_bind_of_preserves h (preserves_lift _) fun audioSamples world h => ?_
  refine raises_bind_of_preserves h preserves_checkCancelled fun _ world h => ?_
  refine raises_bind_of_preserves h (preserves_lift _) fun speechSegments world h => ?_
  refine raises_bind_of_preserves h preserves_checkCancelled fun _ world h => ?_
  refine raises_bind_of_preserves h (preserves_lift _) fun _ world h => ?_
  refine raises_bind_of_preserves h preserves_transcribeAll fun transcripts world h => ?_
  refine raises_bind_of_preserves h preserves_failIf fun _ world h => ?_
  exact raises_createMeeting h fun _ _ => raises_of_ok rfl

/-! ## Where an import fails -/

/-- A stage succeeds, and then what follows is as it should be. -/
def Succeeds (result : Except String α) (next : α → Prop) : Prop := ∃ a, result = .ok a ∧ next a

/-- If an import is cancelled at this check its folder is removed; else it goes on as it should. -/
def TidyCheck (env : ImportEnv) (point : CancelPoint) (next : Prop) : Prop :=
  (env.cancelled point = true → env.removeDir = none) ∧ (env.cancelled point = false → next)

/-- If the batch fails the folder is removed; else the meeting is saved. -/
def TidyBatch (env : ImportEnv) (request : ImportRequest) (before : ImportWorld)
    (speechSegments : List SpeechSegment) : Prop :=
  (∀ message, batchResult env speechSegments = .error message → env.removeDir = none) ∧
  ∀ transcripts, batchResult env speechSegments = .ok transcripts → request.pool = true ∧
    ∃ saved, TranscriptsRepository.saveTranscript env.sql before.db
      (createTranscriptSegments env transcripts) = .ok saved

/-- Once an import has its folder, every stage that it gets to succeeds, up to being cancelled at a
check between them or failing in the batch, where the folder is removed. -/
def FailsTidily (env : ImportEnv) (request : ImportRequest) (before : ImportWorld) : Prop :=
  env.source.isNone = false → env.cancelled .begun = false → env.createDir = none →
    Copies env ∧ TidyCheck env .copied (
      Succeeds (joined env .decode "Decode task join error: " (decodeAudioFileWithProgress env))
        fun decoded => TidyCheck env .decoded (
      Succeeds (joined env .resample "Resample task join error: "
          (toWhisperFormatWithProgress env decoded)) fun audioSamples => TidyCheck env .resampled (
      Succeeds (detectSpeech env audioSamples) fun speechSegments => TidyCheck env .detected (
      Succeeds (if speechSegments.isEmpty then .ok ()
          else getOrInitWhisper env request.pool request.model) fun _ =>
      TidyBatch env request before speechSegments))))

/-! ## Its exits -/

variable {f : α → EStateM String ImportWorld ImportResult}
  {g : Unit → EStateM String ImportWorld ImportResult}

/-- A stage that fails leaves the folder. -/
theorem raises_stage {result : Except String α} (h : Underway before meetingFolder world) :
    Raises (LeavesNothing before) (lift result >>= f) world ↔
      Succeeds result fun a => Raises (LeavesNothing before) (f a) world := by
  rw [raises_lift_bind]
  cases result with
  | ok a => simp [Succeeds]
  | error message => simp [Succeeds, h.not_leavesNothing]

theorem raises_checkCancelled (h : Underway before meetingFolder world) :
    Raises (LeavesNothing before) (checkCancelled env point meetingFolder >>= g) world ↔
      TidyCheck env point (Raises (LeavesNothing before) (g ()) world) := by
  unfold checkCancelled TidyCheck
  split
  · next hcancelled =>
    rw [bind_assoc]
    have hexit : (do
          removeMeetingFolder env meetingFolder
          throw "Import cancelled" >>= g : EStateM String ImportWorld ImportResult) =
        (do removeMeetingFolder env meetingFolder; throw "Import cancelled") := rfl
    rw [hexit, raises_remove_throw h]
    simp [hcancelled]
  · next hcancelled =>
    rw [pure_bind]
    simp [hcancelled]

theorem raises_transcribeAll {speechSegments : List SpeechSegment}
    {f : List BatchTranscript → EStateM String ImportWorld ImportResult}
    (h : Underway before meetingFolder world) :
    Raises (LeavesNothing before) (transcribeAll env speechSegments meetingFolder >>= f) world ↔
      (∀ message, batchResult env speechSegments = .error message → env.removeDir = none) ∧
      ∀ transcripts, batchResult env speechSegments = .ok transcripts →
        Raises (LeavesNothing before) (f transcripts) world := by
  unfold transcribeAll
  rcases batchResult env speechSegments with message | transcripts
  · dsimp only
    rw [bind_assoc]
    have hexit : (do
          removeMeetingFolder env meetingFolder
          throw (if env.cancelled .failed then "Import cancelled" else message) >>= f :
            EStateM String ImportWorld ImportResult) =
        (do removeMeetingFolder env meetingFolder
            throw (if env.cancelled .failed then "Import cancelled" else message)) := rfl
    rw [hexit, raises_remove_throw h]
    simp
  · simp

/-- The end of an import fails only where it does not save the meeting, and leaves the folder
then. -/
theorem raises_save {segments : List TranscriptSegment}
    {f : String → EStateM String ImportWorld ImportResult}
    (h : Underway before meetingFolder world)
    (hf : ∀ meetingId world', Raises (LeavesNothing before) (f meetingId) world') :
    Raises (LeavesNothing before) (do
      failIf (!request.pool) "App state not available"
      let meetingId ← createMeetingWithTranscripts env segments
      f meetingId) world ↔
      request.pool = true ∧
        ∃ saved, TranscriptsRepository.saveTranscript env.sql before.db segments = .ok saved := by
  rw [raises_failIf_bind]
  rcases hpool : request.pool with _ | _
  · simp [h.not_leavesNothing]
  · rcases hsave : TranscriptsRepository.saveTranscript env.sql before.db segments with
      message | ⟨meetingId, db⟩
    · have hfail : createMeetingWithTranscripts env segments world =
          .error ("Failed to create meeting: " ++ message) world := by
        rw [createMeetingWithTranscripts, h.db, hsave]
      rw [raises_bind_of_error hfail]
      simp [h.not_leavesNothing]
    · have hsaved : createMeetingWithTranscripts env segments world =
          .ok meetingId { world with db := db } := by
        rw [createMeetingWithTranscripts, h.db, hsave]
      rw [raises_bind_of_ok hsaved]
      simp [hf]

/-- **A failed import leaves nothing exactly if it fails tidily.** -/
theorem leavesNothing_iff (env : ImportEnv) (request : ImportRequest) (before : ImportWorld) :
    (∀ message after, runImport env request before = .error message after →
      LeavesNothing before after) ↔ FailsTidily env request before := by
  change Raises (LeavesNothing before) (runImport env request) before ↔ _
  unfold runImport FailsTidily
  rw [raises_failIf_bind, raises_failIf_bind]
  simp only [leavesNothing_refl, implies_true, true_and]
  refine imp_congr_right fun _ => imp_congr_right fun _ => ?_
  rcases createMeetingFolder_cases env request.title before with
    ⟨message, hnone, hcreate⟩ | ⟨hcreated, meetingFolder, world, hcreate, hunderway⟩
  · rw [raises_bind_of_error hcreate]
    simp [hnone, leavesNothing_refl]
  rw [raises_bind_of_ok hcreate]
  simp only [hcreated, forall_const]
  rcases copyAudio_cases env request hunderway with
    ⟨message, world', hcopy, hfails, hunderway'⟩ | ⟨world', hcopy, hcopies, hunderway'⟩
  · rw [raises_bind_of_error hcopy]
    simp [hfails, hunderway'.not_leavesNothing]
  rw [raises_bind_of_ok hcopy]
  simp only [hcopies, true_and]
  have hsave : ∀ transcripts durationSeconds, Raises (LeavesNothing before) (do
      failIf (!request.pool) "App state not available"
      let meetingId ← createMeetingWithTranscripts env (createTranscriptSegments env transcripts)
      writeTranscriptFiles env meetingFolder (createTranscriptSegments env transcripts)
        (importMetadata env request meetingId durationSeconds)
      return ⟨meetingId, request.title, (createTranscriptSegments env transcripts).length,
        durationSeconds⟩ : EStateM String ImportWorld ImportResult) world' ↔ _ :=
    fun transcripts durationSeconds => raises_save hunderway' fun _ _ => raises_of_ok rfl
  simp only [raises_checkCancelled hunderway', raises_stage hunderway',
    raises_transcribeAll hunderway', hsave, TidyBatch]

/-- An import that the user cancels while the file is decoded: a progress report finds the flag. -/
def cancelledDecoding : ImportEnv where
  cancelled point := match point with
    | .begun => false
    | .copied => false
    | _ => true
  panics _ := none
  source := some [0]
  timestamp := "2026-01-01_09-00-00".toList
  createDir := none
  copy := .ok
  removeDir := none
  decoder := ⟨.ok (), List.replicate 200 (some [0]), none, 16000, 1⟩
  whisperFormat := ⟨fun samples _ => samples, id, fun samples _ => [.ok samples], (· ++ ·),
    fun samples _ => .ok samples, id⟩
  vad := ⟨.ok (), fun _ _ => .ok [], .ok []⟩
  whisper := none
  transcriptConfig := .ok none
  splitSegmentAtSilence segment := [segment]
  transcribe _ _ := .error "no engine"
  isLikelyHallucination _ _ := false
  diarize _ _ := none
  uuid _ := ""
  now := "2026-01-01T09:00:00+00:00"
  sql := ⟨fun _ => true, fun _ => "", fun _ => ""⟩
  codec := ⟨fun _ => .ok [], fun _ => .error "", id, fun _ => ""⟩
  modified := 0
  transcriptsWrite := .ok
  transcriptsRename := .ok
  metadataWrite := .ok
  metadataRename := .ok

/-- A memo is imported. -/
def memoRequest : ImportRequest :=
  ⟨"/home/user/memo.wav", "memo.wav".toList, "Memo", none, true⟩

/-- Nothing was recorded yet. -/
def noRecordings : ImportWorld := ⟨[], ⟨[], [], []⟩⟩

/-- Its folder stays. -/
theorem not_leavesNothing_cancelledDecoding :
    ¬∀ message after, runImport cancelledDecoding memoRequest noRecordings = .error message after →
      LeavesNothing noRecordings after := by
  intro h
  have hcancelled := h "Decoding cancelled" _ rfl
  exact absurd (hcancelled.folder "Memo_2026-01-01_09-00-00".toList (by decide)) (by decide)

end Import

end MeetilyLocal
