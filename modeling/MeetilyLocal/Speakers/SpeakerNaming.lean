import MeetilyLocal.Speakers.Diarizer
import MeetilyLocal.Speakers.VoiceProfileMerge

/-!
# Naming speakers

The embedding of what `speaker_diarization/service.rs` does to the speakers of a saved meeting:
promoting a label to a new voice profile, merging it into a stored one, and refining all labels. Each
looks up the current diarizer in its process-wide slot, which a function takes as an argument.
-/

namespace MeetilyLocal

open TranscriptsRepository EmbeddingMath

namespace VoiceProfilesRepository

/-- `create`, the statement of number `k`: the id of a new profile. -/
def create (env : SqlEnv) (k : ℕ) (db : Database) (name : String) (email : Option String)
    (embedding : List Float32) (sampleCount : ℤ) : Except String (String × Database) :=
  let id := "profile-" ++ env.uuid k
  if !env.ok k then .error sqlError
  else if db.voiceProfiles.any fun profile => profile.id == id then
    .error "UNIQUE constraint failed: voice_profiles.id"
  else
    let profile : VoiceProfile :=
      { id := id
        name := name
        email := email
        embedding := floatsToBytes embedding
        embeddingDim := embedding.length
        sampleCount := sampleCount
        isSelf := false
        createdAt := env.now k
        updatedAt := env.now k }
    .ok (id, { db with voiceProfiles := db.voiceProfiles ++ [profile] })

end VoiceProfilesRepository

namespace SpeakerService

open VoiceProfilesRepository

/-- The embeddings under a label that the current diarizer reaches. -/
def reachableEmbeddings (slot : Option Diarizer) (oldLabel : String) : List (List Float32) :=
  (slot.map fun diarizer => diarizer.embeddingsForLabel oldLabel).getD []

/-- `rename_speaker_in_meeting` as the statement of number `k`, with the number of rows. -/
def rename (env : SqlEnv) (k : ℕ) (db : Database) (meetingId oldLabel newLabel : String)
    (profileId : Option String) : Except String (ℕ × Database) :=
  if !env.ok k then .error sqlError
  else
    let count := db.transcripts.countP fun row =>
      row.meetingId == meetingId && row.speaker == some oldLabel
    .ok (count, renameSpeakerInMeeting db meetingId oldLabel newLabel profileId)

/-! ## Promoting a label -/

/-- The voice profile that the embeddings of a label are averaged into; none without any. -/
def promotedProfile (env : SqlEnv) (db : Database) (trimmedName : String)
    (normalisedEmail : Option String) (embeddings : List (List Float32)) :
    Except String (Option String × Database) :=
  if embeddings.isEmpty then .ok (none, db)
  else
    match averageAndNormalize embeddings with
    | none => .error "index out of bounds"
    | some centroid =>
      match create env 0 db trimmedName normalisedEmail centroid embeddings.length with
      | .error message => .error ("Failed to create voice profile: " ++ message)
      | .ok (id, db) => .ok (some id, db)

/-- `promote_speaker_to_profile_core`: the new profile and the number of renamed rows. -/
def promoteSpeakerToProfileCore (env : SqlEnv) (slot : Option Diarizer) (db : Database)
    (oldLabel trimmedName : String) (normalisedEmail : Option String) (meetingId : String) :
    Except String (Option String × ℕ) × Database :=
  match promotedProfile env db trimmedName normalisedEmail (reachableEmbeddings slot oldLabel) with
  | .error message => (.error message, db)
  | .ok (profileId, created) =>
    match rename env 1 created meetingId oldLabel trimmedName profileId with
    | .error message => (.error ("Failed to rename transcripts: " ++ message), created)
    | .ok (renamedCount, renamed) => (.ok (profileId, renamedCount), renamed)

/-! ## Merging a label into a profile -/

/-- Fold the embeddings of a label into the centroid of a profile, if there are any and their
dimension is its own. -/
def foldCluster (env : SqlEnv) (db : Database) (profile : VoiceProfile)
    (clusterEmbeddings : List (List Float32)) : Except String (Bool × Database) :=
  match clusterEmbeddings with
  | [] => .ok (false, db)
  | embedding :: _ =>
    if embedding.length = profile.embeddingDim then
      match averageAndNormalize clusterEmbeddings with
      | none => .error "index out of bounds"
      | some clusterCentroid =>
        match bytesToFloats profile.embedding with
        | none => .error "Profile has corrupt embedding"
        | some profileCentroid =>
          match mergeCentroids profileCentroid profile.sampleCount.toNat clusterCentroid
              clusterEmbeddings.length with
          | none => .error "index out of bounds"
          | some merged =>
            if !env.ok 1 then .error ("Failed to update profile centroid: " ++ sqlError)
            else
              .ok (true, updateCentroid db (env.now 1) profile.id merged
                (profile.sampleCount + clusterEmbeddings.length))
    else .ok (false, db)

/-- `merge_cluster_into_profile_core`: the number of renamed rows, and whether the centroid was
updated. -/
def mergeClusterIntoProfileCore (env : SqlEnv) (slot : Option Diarizer) (db : Database)
    (meetingId oldLabel profileId : String) : Except String (ℕ × Bool) × Database :=
  if !env.ok 0 then (.error ("Failed to load profile: " ++ sqlError), db)
  else
    match getById db profileId with
    | none => (.error ("Profile not found: " ++ profileId), db)
    | some profile =>
      match foldCluster env db profile (reachableEmbeddings slot oldLabel) with
      | .error message => (.error message, db)
      | .ok (centroidUpdated, updated) =>
        match rename env 2 updated meetingId oldLabel profile.name (some profile.id) with
        | .error message => (.error ("Failed to rename transcripts: " ++ message), updated)
        | .ok (renamedCount, renamed) => (.ok (renamedCount, centroidUpdated), renamed)

/-! ## Refining all labels -/

/-- The rows that a refinement asks for: one for each assignment that is marked as changed. -/
def refinementUpdates (refined : List RefinedAssignment) : List SpeakerUpdate :=
  (refined.filter RefinedAssignment.changed).map fun a =>
    ⟨a.sequenceId, a.previousSpeaker, a.speaker, a.voiceProfileId⟩

/-- `refine_and_persist`: the number of rewritten rows, and the slot. -/
def refineAndPersist (env : SqlEnv) (slot : Option Diarizer) (db : Database) (meetingId : String) :
    Except String ℕ × Option Diarizer × Database :=
  match slot with
  | none => (.ok 0, none, db)
  | some diarizer =>
    match diarizer.refine with
    | none => (.error "Speaker refinement task panicked", slot, db)
    | some refined =>
      let updates := refinementUpdates refined
      -- an empty history has no updates either
      if updates.isEmpty then (.ok 0, slot, db)
      else
        match updateSpeakersBySequence env db meetingId updates with
        | .error message => (.error ("DB error applying speaker refinement: " ++ message), slot, db)
        | .ok refinedDb =>
          (.ok (speakersChanged meetingId db.transcripts updates),
            some (diarizer.applyRefinement refined), refinedDb)

/-! ## What they do to the transcripts -/

variable {env : SqlEnv} {slot : Option Diarizer} {db : Database}

theorem transcripts_create {k : ℕ} {name id : String} {email : Option String}
    {embedding : List Float32} {count : ℤ} {db' : Database}
    (h : create env k db name email embedding count = .ok (id, db')) :
    db'.transcripts = db.transcripts := by
  simp only [create] at h
  split at h
  · cases h
  split at h
  · cases h
  · obtain ⟨-, rfl⟩ := Prod.mk.inj (Except.ok.inj h)
    rfl

/-- A label with embeddings is given a profile, if any statement succeeds. -/
theorem of_promotedProfile {name : String} {email : Option String}
    {embeddings : List (List Float32)} {profileId : Option String} {db' : Database}
    (h : promotedProfile env db name email embeddings = .ok (profileId, db')) :
    db'.transcripts = db.transcripts ∧
      (embeddings ≠ [] → env.ok 0 = true ∧ profileId.isSome = true) := by
  rw [promotedProfile] at h
  split at h
  · next hempty =>
    obtain ⟨-, rfl⟩ := Prod.mk.inj (Except.ok.inj h)
    exact ⟨rfl, fun hne => absurd (List.isEmpty_iff.mp hempty) hne⟩
  split at h
  · cases h
  split at h
  · cases h
  · next hcreate =>
    obtain ⟨rfl, rfl⟩ := Prod.mk.inj (Except.ok.inj h)
    refine ⟨transcripts_create hcreate, fun _ => ⟨?_, rfl⟩⟩
    by_contra hok
    rw [create] at hcreate
    simp [hok] at hcreate

/-- A promotion leaves the transcripts, or renames the label. -/
theorem transcripts_promote {oldLabel name meetingId : String} {email : Option String} :
    (promoteSpeakerToProfileCore env slot db oldLabel name email meetingId).2.transcripts =
        db.transcripts ∨
      ∃ profileId, (promoteSpeakerToProfileCore env slot db oldLabel name email meetingId).2.transcripts
          = (renameSpeakerInMeeting db meetingId oldLabel name profileId).transcripts ∧
        env.ok 1 = true ∧ (reachableEmbeddings slot oldLabel ≠ [] → env.ok 0 = true) := by
  rw [promoteSpeakerToProfileCore]
  split
  · exact .inl rfl
  · next profileId created hprofile =>
    obtain ⟨hsame, hreach⟩ := of_promotedProfile hprofile
    rw [rename]
    by_cases hok : env.ok 1 = true
    · refine .inr ⟨profileId, ?_, hok, fun hne => (hreach hne).1⟩
      simp [hok, renameSpeakerInMeeting, hsame]
    · exact .inl (by simpa [hok] using hsame)

theorem transcripts_foldCluster {profile : VoiceProfile} {embeddings : List (List Float32)}
    {updated : Bool} {db' : Database}
    (h : foldCluster env db profile embeddings = .ok (updated, db')) :
    db'.transcripts = db.transcripts := by
  unfold foldCluster at h
  split at h
  · obtain ⟨-, rfl⟩ := Prod.mk.inj (Except.ok.inj h)
    rfl
  split at h
  · split at h
    · cases h
    split at h
    · cases h
    split at h
    · cases h
    split at h
    · cases h
    · obtain ⟨-, rfl⟩ := Prod.mk.inj (Except.ok.inj h)
      rfl
  · obtain ⟨-, rfl⟩ := Prod.mk.inj (Except.ok.inj h)
    rfl

/-- A merge into a profile leaves the transcripts, or renames the label. -/
theorem transcripts_mergeCluster {meetingId oldLabel profileId : String} :
    (mergeClusterIntoProfileCore env slot db meetingId oldLabel profileId).2.transcripts =
        db.transcripts ∨
      ∃ profile, getById db profileId = some profile ∧ env.ok 0 = true ∧ env.ok 2 = true ∧
        (mergeClusterIntoProfileCore env slot db meetingId oldLabel profileId).2.transcripts =
          (renameSpeakerInMeeting db meetingId oldLabel profile.name
            (some profile.id)).transcripts := by
  rw [mergeClusterIntoProfileCore]
  by_cases hload : env.ok 0 = true
  · simp only [hload, Bool.not_true, Bool.false_eq_true, if_false]
    split
    · exact .inl rfl
    next profile hprofile =>
    split
    · exact .inl rfl
    · next hfold =>
      have hsame := transcripts_foldCluster hfold
      rw [rename]
      by_cases hok : env.ok 2 = true
      · refine .inr ⟨profile, hprofile, trivial, hok, ?_⟩
        simp [hok, renameSpeakerInMeeting, hsame]
      · exact .inl (by simpa [hok] using hsame)
  · exact .inl (by simp [hload])

/-- A refinement leaves everything, or its statements succeed and both sides change. -/
theorem refineAndPersist_cases {diarizer : Diarizer} {meetingId : String} :
    ((refineAndPersist env (some diarizer) db meetingId).2 = (some diarizer, db)) ∨
      ∃ refined refinedDb, diarizer.refine = some refined ∧
        (refinementUpdates refined).isEmpty = false ∧
        updateSpeakersBySequence env db meetingId (refinementUpdates refined) = .ok refinedDb ∧
        (refineAndPersist env (some diarizer) db meetingId).2 =
          (some (diarizer.applyRefinement refined), refinedDb) := by
  rw [refineAndPersist]
  split
  · exact .inl rfl
  next refined hrefined =>
  simp only
  split
  · exact .inl rfl
  next hne =>
  split
  · exact .inl rfl
  · next refinedDb hupdate =>
    exact .inr ⟨refined, refinedDb, hrefined, Bool.eq_false_iff.mpr hne, hupdate, rfl⟩

end SpeakerService

end MeetilyLocal
