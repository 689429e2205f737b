import Mathlib.Data.List.Nodup
import MeetilyLocal.Library.Text
import MeetilyLocal.Speakers.SpeakerNaming

/-!
# The names of voice profiles

The name of a speaker is stored twice, in the voice profile and in each transcript row that is
linked to it. Promoting, merging and deleting keep the two alike; `update_profile` and `upsert_self`
write the profile only. So a run of calls keeps the names alike exactly if no row is linked to a
profile that these two give another name (`VoiceProfilesRepository.lawful_iff`).
-/

namespace MeetilyLocal

namespace VoiceProfilesRepository

open TranscriptsRepository EmbeddingMath SpeakerService

/-! ## Writing the profiles -/

/-- `str::trim` -/
def trimmed (s : String) : String := String.ofList (trim s.toList)

/-- `clear_self` -/
def clearSelf (db : Database) (now : String) : Database :=
  { db with voiceProfiles := db.voiceProfiles.map fun profile =>
      if profile.isSelf then { profile with isSelf := false, updatedAt := now } else profile }

/-- The last statement of `upsert_self`: the self profile of before is replaced in place, or else a
new one is inserted. -/
def enroll (env : SqlEnv) (existing : Option VoiceProfile) (demoted : Database) (name : String)
    (embedding : List Float32) (sampleCount : ℤ) : Except String (String × Database) :=
  let now := env.now 0
  match existing with
  | some self =>
    .ok (self.id, { demoted with voiceProfiles := demoted.voiceProfiles.map fun profile =>
      if profile.id = self.id then
        { profile with
          name := name
          embedding := floatsToBytes embedding
          embeddingDim := embedding.length
          sampleCount := sampleCount
          isSelf := true
          updatedAt := now }
      else profile })
  | none =>
    let id := "profile-" ++ env.uuid 3
    if demoted.voiceProfiles.any fun profile => profile.id == id then
      .error "UNIQUE constraint failed: voice_profiles.id"
    else
      let profile : VoiceProfile :=
        { id := id
          name := name
          email := none
          embedding := floatsToBytes embedding
          embeddingDim := embedding.length
          sampleCount := sampleCount
          isSelf := true
          createdAt := now
          updatedAt := now }
      .ok (id, { demoted with voiceProfiles := demoted.voiceProfiles ++ [profile] })

/-- `upsert_self`: a transaction that demotes the self profile and enrolls the new one; it returns
its id. -/
def upsertSelf (env : SqlEnv) (db : Database) (name : String) (embedding : List Float32)
    (sampleCount : ℤ) : Except String (String × Database) :=
  if !env.ok 0 || !env.ok 1 || !env.ok 2 || !env.ok 3 then .error sqlError
  else
    let existing := db.voiceProfiles.find? VoiceProfile.isSelf
    match enroll env existing (clearSelf db (env.now 0)) name embedding sampleCount with
    | .error message => .error message
    | .ok (id, enrolled) => if !env.ok 4 then .error sqlError else .ok (id, enrolled)

/-- `update_profile`: whether the profile was there. -/
def updateProfile (env : SqlEnv) (db : Database) (id name : String) (email : Option String) :
    Except String (Bool × Database) :=
  let name := trimmed name
  if name = "" then .error "voice profile name cannot be empty"
  else
    let email := (email.map trimmed).filter fun s => s != ""
    if !env.ok 0 then .error sqlError
    else
      .ok (db.voiceProfiles.any fun profile => profile.id == id,
        { db with voiceProfiles := db.voiceProfiles.map fun profile =>
            if profile.id = id then
              { profile with name := name, email := email, updatedAt := env.now 0 }
            else profile })

/-! ## Runs of calls -/

/-- A call that writes voice profiles. -/
inductive Call : Type where
  /-- `promote_speaker_to_profile_core` -/
  | promoteSpeakerToProfile (oldLabel trimmedName : String) (normalisedEmail : Option String)
      (meetingId : String) : Call
  /-- `merge_cluster_into_profile_core` -/
  | mergeClusterIntoProfile (meetingId oldLabel profileId : String) : Call
  /-- `merge_voice_profiles_core` -/
  | mergeVoiceProfiles (winnerId loserId : String) : Call
  /-- `update_profile` -/
  | updateProfile (id name : String) (email : Option String) : Call
  /-- `upsert_self` -/
  | upsertSelf (name : String) (embedding : List Float32) (sampleCount : ℤ) : Call
  /-- `delete` -/
  | delete (id : String) : Call

/-- What a call returns. -/
inductive Reply : Type where
  | promoted (profileId : Option String) (renamedCount : ℕ) : Reply
  | merged (renamedCount : ℕ) (centroidUpdated : Bool) : Reply
  | updated (found : Bool) : Reply
  | enrolled (profileId : String) : Reply
  | deleted (found : Bool) : Reply

/-- What a function leaves that returns a new database only if it succeeds. -/
def settle {α : Type} (db : Database) (reply : α → Reply) :
    Except String (α × Database) → Except String Reply × Database
  | .error message => (.error message, db)
  | .ok (a, db') => (.ok (reply a), db')

/-- What a call does. -/
def Call.run (env : SqlEnv) (slot : Option Diarizer) (db : Database) :
    Call → Except String Reply × Database
  | .promoteSpeakerToProfile oldLabel trimmedName normalisedEmail meetingId =>
    let (result, db') :=
      promoteSpeakerToProfileCore env slot db oldLabel trimmedName normalisedEmail meetingId
    (result.map fun (profileId, count) => .promoted profileId count, db')
  | .mergeClusterIntoProfile meetingId oldLabel profileId =>
    let (result, db') := mergeClusterIntoProfileCore env slot db meetingId oldLabel profileId
    (result.map fun (count, updated) => .merged count updated, db')
  | .mergeVoiceProfiles winnerId loserId =>
    let (result, db') := mergeVoiceProfilesCore env db winnerId loserId
    (result.map fun (count, updated) => .merged count updated, db')
  | .updateProfile id name email =>
    settle db .updated (VoiceProfilesRepository.updateProfile env db id name email)
  | .upsertSelf name embedding sampleCount =>
    settle db .enrolled (VoiceProfilesRepository.upsertSelf env db name embedding sampleCount)
  | .delete id =>
    let (result, db') := VoiceProfilesRepository.delete env 0 db id
    (result.map fun () => .deleted (db.voiceProfiles.any fun profile => profile.id == id), db')

/-- A call that is made on a database. -/
structure Step : Type where
  /-- which of its statements are executed -/
  env : SqlEnv
  /-- the current diarizer -/
  slot : Option Diarizer
  /-- the database before -/
  before : Database
  /-- the call -/
  call : Call
  /-- what it returns -/
  reply : Reply
  /-- the database after -/
  after : Database

/-- The call succeeds. -/
def Step.Succeeds (step : Step) : Prop :=
  step.call.run step.env step.slot step.before = (.ok step.reply, step.after)

/-- Calls that succeed, one after the other. -/
inductive Run : Database → List Step → Prop
  | nil (db : Database) : Run db []
  | cons {step : Step} {steps : List Step} : step.Succeeds → Run step.after steps →
      Run step.before (step :: steps)

/-! ## What should hold -/

/-- Each linked row refers to a profile and shows its name. -/
def NamesAgree (db : Database) : Prop :=
  ∀ row ∈ db.transcripts, ∀ id, row.voiceProfileId = some id →
    ∃ profile, getById db id = some profile ∧ row.speaker = some profile.name

/-- At most one profile is the user's own. -/
def OneSelf (db : Database) : Prop := db.voiceProfiles.countP VoiceProfile.isSelf ≤ 1

/-- The primary key. -/
def Keyed (db : Database) : Prop := (db.voiceProfiles.map VoiceProfile.id).Nodup

/-- An enrollment keeps the id of the self profile of before. -/
def Step.KeepsSelf (step : Step) : Prop :=
  ∀ name embedding sampleCount, step.call = .upsertSelf name embedding sampleCount →
    ∀ self ∈ step.before.voiceProfiles, self.isSelf = true →
      step.reply = .enrolled self.id ∧
        ∃ self' ∈ step.after.voiceProfiles, self'.id = self.id ∧ self'.isSelf = true

/-- What should hold after a step. -/
def Step.Lawful (step : Step) : Prop :=
  NamesAgree step.after ∧ OneSelf step.after ∧ step.KeepsSelf

/-- All rows that are linked to a profile show the given name. -/
def Shown (db : Database) (id name : String) : Prop :=
  ∀ row ∈ db.transcripts, row.voiceProfileId = some id → row.speaker = some name

/-- A profile is given another name only where no row is linked to it. -/
def Step.KeepsNames (step : Step) : Prop :=
  match step.call with
  | .updateProfile id name _ => Shown step.before id (trimmed name)
  | .upsertSelf name _ _ =>
    ∀ self ∈ step.before.voiceProfiles, self.isSelf = true → Shown step.before self.id name
  | _ => True

/-! ## The tables after a statement -/

variable {env : SqlEnv} {slot : Option Diarizer} {db db' : Database} {id name : String}
  {step : Step} {steps : List Step}

/-- Profiles that keep their ids are found under them. -/
theorem getById_map {f : VoiceProfile → VoiceProfile} (hf : ∀ profile, (f profile).id = profile.id)
    (id : String) :
    getById { db with voiceProfiles := db.voiceProfiles.map f } id = (getById db id).map f := by
  rw [getById, List.find?_map, getById]
  congr 2
  funext profile
  simp only [Function.comp, hf]

theorem keyed_map {f : VoiceProfile → VoiceProfile} (hf : ∀ profile, (f profile).id = profile.id) :
    Keyed { db with voiceProfiles := db.voiceProfiles.map f } ↔ Keyed db := by
  have hids : VoiceProfile.id ∘ f = VoiceProfile.id := funext hf
  rw [Keyed, List.map_map, hids, Keyed]

theorem oneSelf_map {f : VoiceProfile → VoiceProfile}
    (hf : ∀ profile, (f profile).isSelf = profile.isSelf) :
    OneSelf { db with voiceProfiles := db.voiceProfiles.map f } ↔ OneSelf db := by
  have hself : VoiceProfile.isSelf ∘ f = VoiceProfile.isSelf := funext hf
  rw [OneSelf, List.countP_map, hself, OneSelf]

theorem getById_append {profile : VoiceProfile} (id : String) :
    getById { db with voiceProfiles := db.voiceProfiles ++ [profile] } id =
      (getById db id).or (if profile.id = id then some profile else none) := by
  rw [getById, List.find?_append, getById]
  by_cases hid : profile.id = id
  · simp [hid]
  · simp [hid]

theorem not_any_id (h : ¬(db.voiceProfiles.any fun profile => profile.id == id) = true) :
    getById db id = none := by
  simpa [getById] using h

theorem keyed_append {profile : VoiceProfile} (hkeyed : Keyed db)
    (hfresh : getById db profile.id = none) :
    Keyed { db with voiceProfiles := db.voiceProfiles ++ [profile] } := by
  rw [Keyed, List.map_append, List.nodup_append]
  refine ⟨hkeyed, by simp, ?_⟩
  simp only [List.map_cons, List.map_nil, List.mem_singleton, List.mem_map]
  rintro _ ⟨other, hother, rfl⟩ _ rfl heq
  exact absurd (List.find?_eq_none.mp hfresh other hother) (by simp [heq])

/-- Rows stay alike where no profile loses its name. -/
theorem NamesAgree.of_names (hagree : NamesAgree db) (hrows : db'.transcripts = db.transcripts)
    (hname : ∀ id profile, getById db id = some profile →
      (getById db' id).map VoiceProfile.name = some profile.name) : NamesAgree db' := by
  intro row hrow id hlink
  obtain ⟨profile, hget, hspeaker⟩ := hagree row (hrows ▸ hrow) id hlink
  obtain ⟨profile', hget', heq⟩ := Option.map_eq_some_iff.mp (hname id profile hget)
  exact ⟨profile', hget', by rw [heq, hspeaker]⟩

/-- A profile of another name leaves the rows alike exactly if they show that name already. -/
theorem namesAgree_iff_shown (hrows : db'.transcripts = db.transcripts)
    (hother : ∀ id', id' ≠ id →
      (getById db' id').map VoiceProfile.name = (getById db id').map VoiceProfile.name)
    (hname : (getById db' id).map VoiceProfile.name = (getById db id).map fun _ => name)
    (hagree : NamesAgree db) : NamesAgree db' ↔ Shown db id name := by
  constructor
  · intro h row hrow hlink
    obtain ⟨profile, hget, hspeaker⟩ := h row (hrows ▸ hrow) id hlink
    rw [hget, Option.map_some] at hname
    obtain ⟨_, -, heq⟩ := Option.map_eq_some_iff.mp hname.symm
    rw [hspeaker, heq]
  · intro h row hrow id' hlink
    rw [hrows] at hrow
    obtain ⟨profile, hget, hspeaker⟩ := hagree row hrow id' hlink
    by_cases hid : id' = id
    · subst hid
      rw [hget, Option.map_some] at hname
      obtain ⟨profile', hget', heq⟩ := Option.map_eq_some_iff.mp hname
      exact ⟨profile', hget', by rw [heq, h row hrow hlink]⟩
    · have hsame := hother id' hid
      rw [hget, Option.map_some] at hsame
      obtain ⟨profile', hget', heq⟩ := Option.map_eq_some_iff.mp hsame
      exact ⟨profile', hget', by rw [heq, hspeaker]⟩

/-- Rows that are linked anew are given the name of the profile that they are linked to. -/
theorem NamesAgree.relabel (hagree : NamesAgree db) {p : TranscriptRow → Prop} [DecidablePred p]
    {profileId : Option String}
    (hrows : db'.transcripts = db.transcripts.map fun row =>
      if p row then { row with speaker := some name, voiceProfileId := profileId } else row)
    (hkept : ∀ row ∈ db.transcripts, ¬p row → ∀ id, row.voiceProfileId = some id →
      (getById db' id).map VoiceProfile.name = (getById db id).map VoiceProfile.name)
    (hnew : ∀ id, profileId = some id → (getById db' id).map VoiceProfile.name = some name) :
    NamesAgree db' := by
  intro row' hrow' id hlink
  rw [hrows] at hrow'
  obtain ⟨row, hrow, rfl⟩ := List.mem_map.mp hrow'
  by_cases hp : p row
  · rw [if_pos hp] at hlink ⊢
    obtain ⟨profile, hget, heq⟩ := Option.map_eq_some_iff.mp (hnew id hlink)
    exact ⟨profile, hget, congrArg some heq.symm⟩
  · rw [if_neg hp] at hlink ⊢
    obtain ⟨profile, hget, hspeaker⟩ := hagree row hrow id hlink
    have hsame := hkept row hrow hp id hlink
    rw [hget, Option.map_some] at hsame
    obtain ⟨profile', hget', heq⟩ := Option.map_eq_some_iff.mp hsame
    exact ⟨profile', hget', by rw [heq, hspeaker]⟩

/-! ## What each call does -/

/-- The tables are as they should be. -/
structure Consistent (db : Database) : Prop where
  /-- the ids are distinct -/
  keyed : Keyed db
  /-- at most one profile is the user's own -/
  oneSelf : OneSelf db
  /-- the names are alike -/
  agree : NamesAgree db

/-- A new centroid changes nothing that matters here. -/
theorem Consistent.updateCentroid (h : Consistent db) (now id : String)
    (embedding : List Float32) (count : ℤ) :
    Consistent (updateCentroid db now id embedding count) ∧ ∀ id',
      (getById (updateCentroid db now id embedding count) id').map VoiceProfile.name =
        (getById db id').map VoiceProfile.name := by
  have hname : ∀ id', (getById (VoiceProfilesRepository.updateCentroid db now id embedding count)
      id').map VoiceProfile.name = (getById db id').map VoiceProfile.name := by
    intro id'
    rw [getById_updateCentroid, Option.map_map]
    congr 1
    funext profile
    simp only [Function.comp]
    split <;> rfl
  refine ⟨⟨(keyed_map fun profile => ?_).mpr h.keyed,
    (oneSelf_map fun profile => ?_).mpr h.oneSelf, ?_⟩, hname⟩
  · split <;> rfl
  · split <;> rfl
  · refine h.agree.of_names rfl fun id' profile hget => ?_
    rw [hname id', hget, Option.map_some]

/-- `rename_speaker_in_meeting`, to the name of the profile that the rows are linked to. -/
theorem Consistent.rename (h : Consistent db) {meetingId oldLabel : String}
    {profileId : Option String}
    (hnew : ∀ id, profileId = some id → (getById db id).map VoiceProfile.name = some name) :
    Consistent (renameSpeakerInMeeting db meetingId oldLabel name profileId) :=
  ⟨h.keyed, h.oneSelf, h.agree.relabel rfl (fun _ _ _ _ _ => rfl) hnew⟩

theorem of_rename {k count : ℕ} {meetingId oldLabel : String} {profileId : Option String}
    (h : SpeakerService.rename env k db meetingId oldLabel name profileId = .ok (count, db')) :
    db' = renameSpeakerInMeeting db meetingId oldLabel name profileId := by
  rw [SpeakerService.rename] at h
  split at h
  · cases h
  · obtain ⟨-, rfl⟩ := Prod.mk.inj (Except.ok.inj h)
    rfl

/-- `create` -/
theorem Consistent.create (h : Consistent db) {k : ℕ} {email : Option String}
    {embedding : List Float32} {count : ℤ}
    (hcreate : create env k db name email embedding count = .ok (id, db')) :
    Consistent db' ∧ (getById db' id).map VoiceProfile.name = some name := by
  simp only [VoiceProfilesRepository.create] at hcreate
  split at hcreate
  · cases hcreate
  split at hcreate
  · cases hcreate
  next hfresh =>
  obtain ⟨rfl, rfl⟩ := Prod.mk.inj (Except.ok.inj hcreate)
  have hnone := not_any_id hfresh
  refine ⟨⟨keyed_append h.keyed hnone, ?_, ?_⟩, ?_⟩
  · simpa [OneSelf, List.countP_append] using h.oneSelf
  · refine h.agree.of_names rfl fun id' profile hget => ?_
    rw [getById_append, hget, Option.some_or, Option.map_some]
  · rw [getById_append, hnone, Option.none_or, if_pos rfl]
    rfl

/-- `promote_speaker_to_profile_core` -/
theorem Consistent.promote (h : Consistent db) {oldLabel meetingId : String} {email : Option String}
    {result : Option String × ℕ}
    (hrun : promoteSpeakerToProfileCore env slot db oldLabel name email meetingId =
      (.ok result, db')) : Consistent db' := by
  rw [promoteSpeakerToProfileCore] at hrun
  split at hrun
  · cases hrun
  next profileId created hprofile =>
  have hcreated : Consistent created ∧ ∀ id, profileId = some id →
      (getById created id).map VoiceProfile.name = some name := by
    rw [promotedProfile] at hprofile
    split at hprofile
    · obtain ⟨rfl, rfl⟩ := Prod.mk.inj (Except.ok.inj hprofile)
      exact ⟨h, by simp⟩
    split at hprofile
    · cases hprofile
    split at hprofile
    · cases hprofile
    next hcreate =>
    obtain ⟨rfl, rfl⟩ := Prod.mk.inj (Except.ok.inj hprofile)
    obtain ⟨hconsistent, hname⟩ := h.create hcreate
    refine ⟨hconsistent, ?_⟩
    rintro id ⟨rfl⟩
    exact hname
  split at hrun
  · cases hrun
  next hrename =>
  obtain ⟨-, rfl⟩ := Prod.mk.inj hrun
  rw [of_rename hrename]
  exact hcreated.1.rename hcreated.2

theorem Consistent.foldCluster (h : Consistent db) {profile : VoiceProfile}
    {embeddings : List (List Float32)} {updated : Bool}
    (hfold : foldCluster env db profile embeddings = .ok (updated, db')) :
    Consistent db' ∧ ∀ id, (getById db' id).map VoiceProfile.name =
      (getById db id).map VoiceProfile.name := by
  unfold SpeakerService.foldCluster at hfold
  split at hfold
  · obtain ⟨-, rfl⟩ := Prod.mk.inj (Except.ok.inj hfold)
    exact ⟨h, fun _ => rfl⟩
  split at hfold
  · split at hfold
    · cases hfold
    split at hfold
    · cases hfold
    split at hfold
    · cases hfold
    split at hfold
    · cases hfold
    · obtain ⟨-, rfl⟩ := Prod.mk.inj (Except.ok.inj hfold)
      exact h.updateCentroid _ _ _ _
  · obtain ⟨-, rfl⟩ := Prod.mk.inj (Except.ok.inj hfold)
    exact ⟨h, fun _ => rfl⟩

/-- `merge_cluster_into_profile_core` -/
theorem Consistent.mergeCluster (h : Consistent db) {meetingId oldLabel profileId : String}
    {result : ℕ × Bool}
    (hrun : mergeClusterIntoProfileCore env slot db meetingId oldLabel profileId =
      (.ok result, db')) : Consistent db' := by
  rw [mergeClusterIntoProfileCore] at hrun
  split at hrun
  · cases hrun
  split at hrun
  · cases hrun
  next profile hget =>
  split at hrun
  · cases hrun
  next hfold =>
  obtain ⟨hconsistent, hname⟩ := h.foldCluster hfold
  split at hrun
  · cases hrun
  next hrename =>
  obtain ⟨-, rfl⟩ := Prod.mk.inj hrun
  rw [of_rename hrename]
  refine hconsistent.rename ?_
  rintro id ⟨rfl⟩
  rw [hname, id_of_getById hget, hget, Option.map_some]

/-- The first statement of `delete`, where no row is linked to the profile any more, and the second
one, where it is gone. -/
theorem Consistent.delete (h : Consistent db) {k : ℕ}
    (hdelete : delete env k db id = (.ok (), db')) : Consistent db' := by
  rw [VoiceProfilesRepository.delete] at hdelete
  split at hdelete
  · cases hdelete
  simp only at hdelete
  split at hdelete
  · cases hdelete
  obtain ⟨-, rfl⟩ := Prod.mk.inj hdelete
  refine ⟨?_, ?_, ?_⟩
  · exact h.keyed.sublist (List.filter_sublist.map _)
  · exact (List.filter_sublist.countP_le).trans h.oneSelf
  · intro row' hrow' id' hlink
    obtain ⟨row, hrow, rfl⟩ := List.mem_map.mp hrow'
    split at hlink
    · cases hlink
    next hne =>
    rw [if_neg hne]
    obtain ⟨profile, hget, hspeaker⟩ := h.agree row hrow id' hlink
    have hid : id' ≠ id := by
      rintro rfl
      exact hne hlink
    exact ⟨profile, (getById_deleteProfile hid).trans hget, hspeaker⟩

/-- `merge_voice_profiles_core` -/
theorem Consistent.merge (h : Consistent db) {winnerId loserId : String} {result : ℕ × Bool}
    (hrun : mergeVoiceProfilesCore env db winnerId loserId = (.ok result, db')) :
    Consistent db' := by
  rw [mergeVoiceProfilesCore] at hrun
  split at hrun
  · cases hrun
  next winner loser centroid hload =>
  obtain ⟨hwinner, -, -⟩ := of_loadMerge hload
  rw [writeMerge] at hrun
  split at hrun
  · cases hrun
  simp only at hrun
  split at hrun
  · cases hrun
  have hwritten : Consistent (writeCentroid env db winner loser centroid) ∧ ∀ id,
      (getById (writeCentroid env db winner loser centroid) id).map VoiceProfile.name =
        (getById db id).map VoiceProfile.name := by
    cases centroid with
    | none => exact ⟨h, fun _ => rfl⟩
    | some merged => exact h.updateCentroid _ _ _ _
  have hrelinked : Consistent (relinkTranscripts (writeCentroid env db winner loser centroid)
      loser.id winner.id winner.name) := by
    refine ⟨hwritten.1.keyed, hwritten.1.oneSelf,
      hwritten.1.agree.relabel (p := fun row => row.voiceProfileId = some loser.id) rfl
        (fun _ _ _ _ _ => rfl) ?_⟩
    rintro id ⟨rfl⟩
    refine (hwritten.2 winner.id).trans ?_
    rw [id_of_getById hwinner, hwinner, Option.map_some]
  split at hrun
  · cases hrun
  next hdelete =>
  obtain ⟨-, rfl⟩ := Prod.mk.inj hrun
  exact hrelinked.delete hdelete

/-- `update_profile` -/
theorem Consistent.updateProfile (h : Consistent db) {email : Option String} {found : Bool}
    (hupdate : updateProfile env db id name email = .ok (found, db')) :
    Keyed db' ∧ OneSelf db' ∧ (NamesAgree db' ↔ Shown db id (trimmed name)) := by
  simp only [VoiceProfilesRepository.updateProfile] at hupdate
  split at hupdate
  · cases hupdate
  split at hupdate
  · cases hupdate
  obtain ⟨-, rfl⟩ := Prod.mk.inj (Except.ok.inj hupdate)
  have hmap := @getById_map db (fun profile => if profile.id = id then
    { profile with
      name := trimmed name
      email := (email.map trimmed).filter fun s => s != ""
      updatedAt := env.now 0 }
    else profile) (fun profile => by split <;> rfl)
  refine ⟨(keyed_map fun profile => ?_).mpr h.keyed, (oneSelf_map fun profile => ?_).mpr h.oneSelf,
    namesAgree_iff_shown rfl (fun id' hne => ?_) ?_ h.agree⟩
  · split <;> rfl
  · split <;> rfl
  · rw [hmap, Option.map_map]
    refine Option.map_congr fun profile hget => ?_
    rw [Function.comp, if_neg]
    rwa [id_of_getById hget]
  · rw [hmap, Option.map_map]
    refine Option.map_congr fun profile hget => ?_
    rw [Function.comp, if_pos (id_of_getById hget)]

theorem isSelf_clearSelf (now : String) :
    ∀ profile ∈ (clearSelf db now).voiceProfiles, profile.isSelf = false := by
  intro profile' hmem
  obtain ⟨profile, -, rfl⟩ := List.mem_map.mp hmem
  split
  · rfl
  · next hself => simpa using hself

theorem getById_clearSelf (now id : String) :
    getById (clearSelf db now) id = (getById db id).map fun profile =>
      if profile.isSelf then { profile with isSelf := false, updatedAt := now } else profile :=
  getById_map (fun profile => by split <;> rfl) id

theorem name_clearSelf (now id : String) : (getById (clearSelf db now) id).map VoiceProfile.name =
    (getById db id).map VoiceProfile.name := by
  rw [getById_clearSelf, Option.map_map]
  congr 1
  funext profile
  simp only [Function.comp]
  split <;> rfl

/-- A self profile is the one that is found. -/
theorem OneSelf.eq (h : OneSelf db) {self other : VoiceProfile}
    (hself : self ∈ db.voiceProfiles) (hisSelf : self.isSelf = true)
    (hother : db.voiceProfiles.find? VoiceProfile.isSelf = some other) : self = other := by
  obtain ⟨hisOther, before, rest, hsplit, hbefore⟩ := List.find?_eq_some_iff_append.mp hother
  rw [OneSelf, hsplit, List.countP_append, List.countP_cons_of_pos hisOther] at h
  rw [hsplit] at hself
  have hrest : rest.countP VoiceProfile.isSelf = 0 := by omega
  rcases List.mem_append.mp hself with hmem | hmem
  · have hno := hbefore self hmem
    simp [hisSelf] at hno
  · rcases List.mem_cons.mp hmem with rfl | hmem
    · rfl
    · exact absurd hisSelf (List.countP_eq_zero.mp hrest self hmem)

theorem countP_id_le_one (hkeyed : Keyed db) (id : String) :
    db.voiceProfiles.countP (fun profile => profile.id == id) ≤ 1 := by
  have hcount := List.nodup_iff_count_le_one.mp hkeyed id
  rwa [List.count, List.countP_map] at hcount

theorem keyed_clearSelf (hkeyed : Keyed db) (now : String) : Keyed (clearSelf db now) :=
  (keyed_map fun profile => by split <;> rfl).mpr hkeyed

/-- The self profile of before is replaced in place. -/
theorem Consistent.replaceSelf (h : Consistent db) {self : VoiceProfile}
    (hfind : db.voiceProfiles.find? VoiceProfile.isSelf = some self) {embedding : List Float32}
    {count : ℤ}
    (henroll : enroll env (some self) (clearSelf db (env.now 0)) name embedding count =
      .ok (id, db')) :
    Keyed db' ∧ OneSelf db' ∧ (NamesAgree db' ↔ Shown db self.id name) ∧ id = self.id ∧
      ∃ self' ∈ db'.voiceProfiles, self'.id = self.id ∧ self'.isSelf = true := by
  rw [enroll] at henroll
  obtain ⟨rfl, rfl⟩ := Prod.mk.inj (Except.ok.inj henroll)
  obtain ⟨f, hf⟩ : ∃ f : VoiceProfile → VoiceProfile, f = fun profile =>
      if profile.id = self.id then
        { profile with
          name := name
          embedding := floatsToBytes embedding
          embeddingDim := embedding.length
          sampleCount := count
          isSelf := true
          updatedAt := env.now 0 }
      else profile := ⟨_, rfl⟩
  have hid : ∀ profile, (f profile).id = profile.id := by
    intro profile
    rw [hf]
    dsimp only
    split <;> rfl
  have hname : ∀ profile,
      (f profile).name = if profile.id = self.id then name else profile.name := by
    intro profile
    rw [hf]
    dsimp only
    split <;> rfl
  have hself : ∀ profile, (f profile).isSelf = (profile.id == self.id || profile.isSelf) := by
    intro profile
    rw [hf]
    dsimp only
    split
    · next heq => simp [heq]
    · next hne => simp [hne]
  rw [← hf]
  have hkeyed := keyed_clearSelf h.keyed (env.now 0)
  have hmap := @getById_map (clearSelf db (env.now 0)) f hid
  refine ⟨(keyed_map hid).mpr hkeyed, ?_, namesAgree_iff_shown rfl (fun id' hne => ?_) ?_ h.agree,
    rfl, ?_⟩
  · rw [OneSelf, List.countP_map]
    refine (List.countP_mono_left fun profile hmem hprofile => ?_).trans
      (countP_id_le_one hkeyed self.id)
    simpa [hself, isSelf_clearSelf (env.now 0) profile hmem] using hprofile
  · rw [hmap, Option.map_map, ← name_clearSelf (env.now 0)]
    refine Option.map_congr fun profile hget => ?_
    rw [Function.comp, hname, if_neg]
    rwa [id_of_getById hget]
  · have hdemoted : (getById (clearSelf db (env.now 0)) self.id).map (fun _ => name) =
        (getById db self.id).map fun _ => name := by
      rw [getById_clearSelf, Option.map_map]
      rfl
    rw [hmap, Option.map_map, ← hdemoted]
    refine Option.map_congr fun profile hget => ?_
    rw [Function.comp, hname, if_pos (id_of_getById hget)]
  · have hmem := List.mem_map_of_mem (f := fun profile : VoiceProfile =>
      if profile.isSelf then { profile with isSelf := false, updatedAt := env.now 0 } else profile)
      (List.mem_of_find?_eq_some hfind)
    refine ⟨_, List.mem_map_of_mem hmem, ?_⟩
    rw [hid, hself]
    split
    · simp
    · simp

/-- There is no self profile before. -/
theorem Consistent.insertSelf (h : Consistent db) {embedding : List Float32} {count : ℤ}
    (henroll : enroll env none (clearSelf db (env.now 0)) name embedding count = .ok (id, db')) :
    Keyed db' ∧ OneSelf db' ∧ NamesAgree db' := by
  simp only [enroll] at henroll
  split at henroll
  · cases henroll
  next hfresh =>
  obtain ⟨rfl, rfl⟩ := Prod.mk.inj (Except.ok.inj henroll)
  refine ⟨keyed_append (keyed_clearSelf h.keyed _) (not_any_id hfresh), ?_, ?_⟩
  · have hnone : (clearSelf db (env.now 0)).voiceProfiles.countP VoiceProfile.isSelf = 0 :=
      List.countP_eq_zero.mpr fun profile hmem => by simp [isSelf_clearSelf _ profile hmem]
    rw [OneSelf, List.countP_append, hnone]
    rfl
  · refine h.agree.of_names rfl fun id' profile hget => ?_
    have hsame := @name_clearSelf db (env.now 0) id'
    rw [hget, Option.map_some] at hsame
    obtain ⟨profile', hget', heq⟩ := Option.map_eq_some_iff.mp hsame
    rw [getById_append, hget', Option.some_or, Option.map_some, heq]

/-- `upsert_self` -/
theorem Consistent.upsertSelf (h : Consistent db) {embedding : List Float32} {count : ℤ}
    (hupsert : upsertSelf env db name embedding count = .ok (id, db')) :
    Keyed db' ∧ OneSelf db' ∧
      (NamesAgree db' ↔ ∀ self ∈ db.voiceProfiles, self.isSelf = true → Shown db self.id name) ∧
      ∀ self ∈ db.voiceProfiles, self.isSelf = true → id = self.id ∧
        ∃ self' ∈ db'.voiceProfiles, self'.id = self.id ∧ self'.isSelf = true := by
  simp only [VoiceProfilesRepository.upsertSelf] at hupsert
  split at hupsert
  · cases hupsert
  split at hupsert
  · cases hupsert
  next henroll =>
  split at hupsert
  · cases hupsert
  obtain ⟨rfl, rfl⟩ := Prod.mk.inj (Except.ok.inj hupsert)
  cases hfind : db.voiceProfiles.find? VoiceProfile.isSelf with
  | some self =>
    rw [hfind] at henroll
    obtain ⟨hkeyed, hone, hnames, hid, hkept⟩ := h.replaceSelf hfind henroll
    have honly : ∀ other ∈ db.voiceProfiles, other.isSelf = true → other = self :=
      fun other hmem hother => h.oneSelf.eq hmem hother hfind
    refine ⟨hkeyed, hone, hnames.trans ⟨fun hshown other hmem hother => ?_, fun hall => ?_⟩,
      fun other hmem hother => ?_⟩
    · rwa [honly other hmem hother]
    · exact hall self (List.mem_of_find?_eq_some hfind) (List.find?_some hfind)
    · rw [honly other hmem hother]
      exact ⟨hid, hkept⟩
  | none =>
    rw [hfind] at henroll
    obtain ⟨hkeyed, hone, hnames⟩ := h.insertSelf henroll
    have hno : ∀ other ∈ db.voiceProfiles, ¬other.isSelf = true := List.find?_eq_none.mp hfind
    exact ⟨hkeyed, hone, iff_of_true hnames fun other hmem hother => absurd hother (hno other hmem),
      fun other hmem hother => absurd hother (hno other hmem)⟩

/-! ## Steps and runs -/

theorem settle_eq_ok {α : Type} {reply : α → Reply} {result : Except String (α × Database)}
    {answer : Reply} (h : settle db reply result = (.ok answer, db')) :
    ∃ a, result = .ok (a, db') ∧ reply a = answer := by
  cases result with
  | error message => cases h
  | ok value =>
    obtain ⟨a, db''⟩ := value
    obtain ⟨hreply, rfl⟩ := Prod.mk.inj h
    exact ⟨a, rfl, Except.ok.inj hreply⟩

theorem map_eq_ok {α : Type} {reply : α → Reply} {result : Except String α × Database}
    {answer : Reply} (h : (result.1.map reply, result.2) = (Except.ok answer, db')) :
    ∃ a, result = (.ok a, db') := by
  obtain ⟨outcome, after⟩ := result
  obtain ⟨hreply, rfl⟩ := Prod.mk.inj h
  cases outcome with
  | error message => cases hreply
  | ok a => exact ⟨a, rfl⟩

/-- **One call** keeps the tables as they should be, exactly if it keeps the names. -/
theorem Step.Succeeds.spec (hstep : step.Succeeds) (h : Consistent step.before) :
    Keyed step.after ∧ OneSelf step.after ∧ step.KeepsSelf ∧
      (NamesAgree step.after ↔ step.KeepsNames) := by
  obtain ⟨env, slot, before, call, reply, after⟩ := step
  have hkept : Consistent after →
      (∀ name embedding count, call ≠ .upsertSelf name embedding count) →
      (∀ id name email, call ≠ .updateProfile id name email) →
      Keyed after ∧ OneSelf after ∧ Step.KeepsSelf ⟨env, slot, before, call, reply, after⟩ ∧
        (NamesAgree after ↔ Step.KeepsNames ⟨env, slot, before, call, reply, after⟩) := by
    intro hafter hupsert hupdate
    refine ⟨hafter.keyed, hafter.oneSelf, fun name embedding count hcall => ?_,
      iff_of_true hafter.agree ?_⟩
    · exact absurd hcall (hupsert name embedding count)
    · cases call with
      | updateProfile id name email => exact absurd rfl (hupdate id name email)
      | upsertSelf name embedding count => exact absurd rfl (hupsert name embedding count)
      | _ => trivial
  cases call with
  | promoteSpeakerToProfile oldLabel trimmedName normalisedEmail meetingId =>
    obtain ⟨result, hrun⟩ := map_eq_ok hstep
    exact hkept (h.promote hrun) (by simp) (by simp)
  | mergeClusterIntoProfile meetingId oldLabel profileId =>
    obtain ⟨result, hrun⟩ := map_eq_ok hstep
    exact hkept (h.mergeCluster hrun) (by simp) (by simp)
  | mergeVoiceProfiles winnerId loserId =>
    obtain ⟨result, hrun⟩ := map_eq_ok hstep
    exact hkept (h.merge hrun) (by simp) (by simp)
  | delete id =>
    obtain ⟨result, hrun⟩ := map_eq_ok hstep
    exact hkept (h.delete hrun) (by simp) (by simp)
  | updateProfile id name email =>
    obtain ⟨found, hrun, -⟩ := settle_eq_ok hstep
    obtain ⟨hkeyed, hone, hnames⟩ := h.updateProfile hrun
    refine ⟨hkeyed, hone, ?_, hnames⟩
    rintro _ _ _ ⟨⟩
  | upsertSelf name embedding count =>
    obtain ⟨id, hrun, rfl⟩ := settle_eq_ok hstep
    obtain ⟨hkeyed, hone, hnames, hself⟩ := h.upsertSelf hrun
    refine ⟨hkeyed, hone, ?_, hnames⟩
    rintro _ _ _ ⟨⟩ self hmem hisSelf
    obtain ⟨rfl, hkept⟩ := hself self hmem hisSelf
    exact ⟨rfl, hkept⟩

/-- **Runs**: from tables that are as they should be, every step of a run leaves names that are
alike, one self profile at most and its id, exactly if no step gives another name to a profile that
a row is linked to. -/
theorem lawful_iff (hkeyed : Keyed db) (hone : OneSelf db) (hagree : NamesAgree db)
    (hrun : Run db steps) :
    (∀ step ∈ steps, step.Lawful) ↔ ∀ step ∈ steps, step.KeepsNames := by
  induction hrun with
  | nil db => simp
  | @cons step steps hstep hrun ih =>
    obtain ⟨hkeyed', hone', hself, hnames⟩ := hstep.spec ⟨hkeyed, hone, hagree⟩
    simp only [List.forall_mem_cons]
    constructor
    · rintro ⟨hlawful, hrest⟩
      exact ⟨hnames.mp hlawful.1, (ih hkeyed' hone' hlawful.1).mp hrest⟩
    · rintro ⟨hkeeps, hrest⟩
      have hafter := hnames.mpr hkeeps
      exact ⟨⟨hafter, hone', hself⟩, (ih hkeyed' hone' hafter).mpr hrest⟩

/-! ### A profile that is renamed -/

/-- All statements are executed. -/
def undisturbed : SqlEnv := ⟨fun _ => true, fun _ => "2026-01-02", fun _ => "0"⟩

/-- What Ann said, with a name and a link. -/
def annRow (speaker : String) (voiceProfileId : Option String) : TranscriptRow :=
  ⟨"a", "meeting-1", "Good morning.", "10:00", none, none, none, some speaker, voiceProfileId, none,
    none, none⟩

/-- The profile of Ann. -/
def annProfile (name : String) (email : Option String) (updatedAt : String) : VoiceProfile :=
  ⟨"profile-1", name, email, [0, 0, 128, 63], 1, 3, false, "2026-01-01", updatedAt⟩

/-- A row that is linked to the profile of Ann. -/
def annDatabase : Database :=
  ⟨["meeting-1"], [annRow "Ann" (some "profile-1")], [annProfile "Ann" none "2026-01-01"]⟩

/-- Her address is added. -/
def addressed : Step where
  env := undisturbed
  slot := none
  before := annDatabase
  call := .updateProfile "profile-1" " Ann " (some "ann@example.com")
  reply := .updated true
  after := { annDatabase with
    voiceProfiles := [annProfile "Ann" (some "ann@example.com") "2026-01-02"] }

/-- Her profile is deleted then. -/
def forgotten : Step where
  env := undisturbed
  slot := none
  before := addressed.after
  call := .delete "profile-1"
  reply := .deleted true
  after := ⟨["meeting-1"], [annRow "Ann" none], []⟩

theorem consistent_annDatabase :
    Keyed annDatabase ∧ OneSelf annDatabase ∧ NamesAgree annDatabase := by
  refine ⟨List.nodup_singleton _, Nat.zero_le 1, fun row hrow id hlink => ?_⟩
  obtain rfl := List.mem_singleton.mp hrow
  obtain rfl := Option.some.inj hlink
  exact ⟨_, rfl, rfl⟩

theorem lawful_addressed : addressed.Lawful ∧ forgotten.Lawful := by
  obtain ⟨hkeyed, hone, hagree⟩ := consistent_annDatabase
  have hrun : Run annDatabase [addressed, forgotten] :=
    .cons (rfl : addressed.Succeeds) (.cons (rfl : forgotten.Succeeds) (.nil _))
  have hlawful := (lawful_iff hkeyed hone hagree hrun).mpr fun step hmem => by
    rcases List.mem_pair.mp hmem with rfl | rfl
    · intro row hrow _
      obtain rfl := List.mem_singleton.mp hrow
      rfl
    · trivial
  exact ⟨hlawful _ List.mem_cons_self, hlawful _ (List.mem_cons_of_mem _ List.mem_cons_self)⟩

/-- She is called by her full name from now on. -/
def renamed : Step where
  env := undisturbed
  slot := none
  before := annDatabase
  call := .updateProfile "profile-1" "Ann Miller" none
  reply := .updated true
  after := { annDatabase with voiceProfiles := [annProfile "Ann Miller" none "2026-01-02"] }

/-- Her rows still show the old name. -/
theorem not_lawful_renamed :
    ¬∀ (db : Database) (steps : List Step), Keyed db → OneSelf db → NamesAgree db → Run db steps →
      ∀ step ∈ steps, step.Lawful := by
  intro h
  obtain ⟨hkeyed, hone, hagree⟩ := consistent_annDatabase
  have hrun : Run annDatabase [renamed] := .cons (rfl : renamed.Succeeds) (.nil _)
  obtain ⟨hnames, -⟩ := h annDatabase [renamed] hkeyed hone hagree hrun renamed (by simp)
  obtain ⟨profile, hget, hspeaker⟩ := hnames _ (List.mem_singleton_self _) "profile-1" rfl
  obtain rfl := Option.some.inj hget
  have hname := Option.some.inj hspeaker
  exact absurd hname (by decide)

end VoiceProfilesRepository

end MeetilyLocal
