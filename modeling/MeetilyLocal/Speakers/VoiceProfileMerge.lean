import MeetilyLocal.Database.Transcripts
import MeetilyLocal.Speakers.EmbeddingMath

/-!
# Merging voice profiles

The embedding of `merge_voice_profiles_core` (`speaker_diarization/service.rs`) and of what it uses
of `database/repositories/voice_profile.rs`. It reads both profiles and then writes in four
statements that share no transaction; `mergesAtomically_iff` says exactly when the tables end up as
they should.
-/

namespace MeetilyLocal

namespace VoiceProfilesRepository

open TranscriptsRepository EmbeddingMath

/-- `get_by_id` -/
def getById (db : Database) (id : String) : Option VoiceProfile :=
  db.voiceProfiles.find? fun profile => profile.id == id

/-- `update_centroid` -/
def updateCentroid (db : Database) (now id : String) (embedding : List Float32)
    (sampleCount : ℤ) : Database :=
  { db with voiceProfiles := db.voiceProfiles.map fun profile =>
      if profile.id = id then
        { profile with
          embedding := floatsToBytes embedding
          embeddingDim := embedding.length
          sampleCount := sampleCount
          updatedAt := now }
      else profile }

/-- The first statement of `delete`. -/
def deleteProfile (db : Database) (id : String) : Database :=
  { db with voiceProfiles := db.voiceProfiles.filter fun profile => profile.id != id }

/-- The second statement of `delete`. -/
def detachTranscripts (db : Database) (id : String) : Database :=
  { db with transcripts := db.transcripts.map fun row =>
      if row.voiceProfileId = some id then { row with voiceProfileId := none } else row }

/-- `delete`, whose statements have the numbers `k` and `k + 1`. -/
def delete (env : SqlEnv) (k : ℕ) (db : Database) (id : String) : Except String Unit × Database :=
  if !env.ok k then (.error sqlError, db)
  else
    let deleted := deleteProfile db id
    if !env.ok (k + 1) then (.error sqlError, deleted)
    else (.ok (), detachTranscripts deleted id)

/-- What `merge_voice_profiles_core` reads before it writes: the winner, the loser, and the merged
centroid if the embeddings have the same dimension. -/
def loadMerge (env : SqlEnv) (db : Database) (winnerId loserId : String) :
    Except String (VoiceProfile × VoiceProfile × Option (List Float32)) :=
  if !env.ok 0 then .error ("Failed to load winner profile: " ++ sqlError)
  else
    match getById db winnerId with
    | none => .error ("Profile not found: " ++ winnerId)
    | some winner =>
      if !env.ok 1 then .error ("Failed to load loser profile: " ++ sqlError)
      else
        match getById db loserId with
        | none => .error ("Profile not found: " ++ loserId)
        | some loser =>
          if winner.embeddingDim = loser.embeddingDim then
            match bytesToFloats winner.embedding with
            | none => .error "Winner profile has corrupt embedding"
            | some winnerCentroid =>
              match bytesToFloats loser.embedding with
              | none => .error "Loser profile has corrupt embedding"
              | some loserCentroid =>
                match mergeCentroids winnerCentroid winner.sampleCount.toNat loserCentroid
                    loser.sampleCount.toNat with
                | none => .error "index out of bounds"
                | some merged => .ok (winner, loser, some merged)
          else .ok (winner, loser, none)

/-- The database after the centroid was written, if there is one. -/
def writeCentroid (env : SqlEnv) (db : Database) (winner loser : VoiceProfile) :
    Option (List Float32) → Database
  | some merged =>
    updateCentroid db (env.now 2) winner.id merged (winner.sampleCount + loser.sampleCount)
  | none => db

/-- What `merge_voice_profiles_core` writes: the centroid, the relinked transcripts, and the
deletion of the loser. -/
def writeMerge (env : SqlEnv) (db : Database) (winner loser : VoiceProfile)
    (centroid : Option (List Float32)) : Except String (ℕ × Bool) × Database :=
  if centroid.isSome && !env.ok 2 then
    (.error ("Failed to update winner centroid: " ++ sqlError), db)
  else
    let updated := writeCentroid env db winner loser centroid
    if !env.ok 3 then (.error ("Failed to relink transcripts: " ++ sqlError), updated)
    else
      let relinked := relinkTranscripts updated loser.id winner.id winner.name
      let renamedCount := updated.transcripts.countP fun row => row.voiceProfileId == some loser.id
      match delete env 4 relinked loser.id with
      | (.error message, db) => (.error ("Failed to delete loser profile: " ++ message), db)
      | (.ok (), db) => (.ok (renamedCount, centroid.isSome), db)

/-- `merge_voice_profiles_core`: fold the loser's centroid into the winner's, relink every
transcript of the loser and delete it; it returns the number of relinked rows and whether the
centroid was updated. -/
def mergeVoiceProfilesCore (env : SqlEnv) (db : Database) (winnerId loserId : String) :
    Except String (ℕ × Bool) × Database :=
  match loadMerge env db winnerId loserId with
  | .error message => (.error message, db)
  | .ok (winner, loser, centroid) => writeMerge env db winner loser centroid

/-! ## What a merge should do -/

/-- The loser is merged into the winner. -/
structure Merged (db db' : Database) (winner loser : VoiceProfile) : Prop where
  /-- the loser is gone -/
  gone : ∀ profile ∈ db'.voiceProfiles, profile.id ≠ loser.id
  /-- its transcript rows point to the winner -/
  relinked : List.Forall₂ (fun row row' => row.voiceProfileId = some loser.id →
    row'.voiceProfileId = some winner.id) db.transcripts db'.transcripts
  /-- the winner is there, with the samples of both and their weighted mean -/
  conserved : ∃ winner', getById db' winner.id = some winner' ∧
    (winner.embeddingDim = loser.embeddingDim →
      winner'.sampleCount = winner.sampleCount + loser.sampleCount ∧
      ∃ a b, bytesToFloats winner.embedding = some a ∧ bytesToFloats loser.embedding = some b ∧
        winner'.embedding = floatsToBytes
          (weightedMean a winner.sampleCount.toNat b loser.sampleCount.toNat)) ∧
    (winner.isSelf = true ∨ loser.isSelf = true → winner'.isSelf = true)

/-- A merge leaves the tables as they were, or merges the profiles; a winner that existed still
does. -/
def MergesAtomically (env : SqlEnv) (db : Database) (winnerId loserId : String) : Prop :=
  let db' := (mergeVoiceProfilesCore env db winnerId loserId).2
  (db' = db ∨ ∃ winner loser, getById db winnerId = some winner ∧ getById db loserId = some loser ∧
      Merged db db' winner loser) ∧
    ((getById db winnerId).isSome = true → (getById db' winnerId).isSome = true)

/-- The first statement that fails, of those that write, comes before a table was changed; or none
of the first three fails, the profiles are two, and the loser is not the user's own unless the
winner is. -/
def WritesAllOrNothing (env : SqlEnv) (db : Database) (winner loser : VoiceProfile)
    (centroid : Option (List Float32)) : Prop :=
  let updated := writeCentroid env db winner loser centroid
  (centroid.isSome = true ∧ env.ok 2 = false) ∨
  (env.ok 3 = false ∧ updated = db) ∨
  (env.ok 3 = true ∧ env.ok 4 = false ∧
    relinkTranscripts updated loser.id winner.id winner.name = db) ∨
  (env.ok 3 = true ∧ env.ok 4 = true ∧ winner.id ≠ loser.id ∧
    (loser.isSelf = true → winner.isSelf = true))

/-! ## The profiles after a statement -/

variable {env : SqlEnv} {db : Database} {winner loser : VoiceProfile} {winnerId loserId id : String}
  {centroid : Option (List Float32)}

theorem id_of_getById {profile : VoiceProfile} (h : getById db id = some profile) :
    profile.id = id := by
  simpa using List.find?_some h

/-- Centroids do not move profiles. -/
theorem getById_updateCentroid (db : Database) (now id id' : String) (embedding : List Float32)
    (count : ℤ) :
    getById (updateCentroid db now id embedding count) id' =
      (getById db id').map fun profile =>
        if profile.id = id then
          { profile with
            embedding := floatsToBytes embedding
            embeddingDim := embedding.length
            sampleCount := count
            updatedAt := now }
        else profile := by
  rw [getById, updateCentroid, List.find?_map, getById]
  congr 2
  funext profile
  simp only [Function.comp]
  split <;> rfl

theorem getById_deleteProfile (h : id ≠ loserId) :
    getById (deleteProfile db loserId) id = getById db id := by
  rw [getById, deleteProfile, List.find?_filter, getById]
  congr 1
  funext profile
  by_cases hid : profile.id = id
  · simp [hid, h]
  · simp [hid]

theorem getById_deleteProfile_self : getById (deleteProfile db id) id = none := by
  rw [getById, deleteProfile, List.find?_filter]
  exact List.find?_eq_none.mpr fun profile _ => by simp

/-- What the winner is after its centroid was written. -/
theorem getById_writeCentroid (env : SqlEnv) (loser : VoiceProfile)
    (centroid : Option (List Float32)) (h : getById db winnerId = some winner) :
    ∃ winner', getById (writeCentroid env db winner loser centroid) winnerId = some winner' ∧
      winner'.isSelf = winner.isSelf ∧ ∀ merged, centroid = some merged →
        winner'.sampleCount = winner.sampleCount + loser.sampleCount ∧
        winner'.embedding = floatsToBytes merged := by
  cases centroid with
  | none => exact ⟨winner, h, rfl, nofun⟩
  | some merged =>
    have hget := getById_updateCentroid db (env.now 2) winner.id winnerId merged
      (winner.sampleCount + loser.sampleCount)
    rw [h, Option.map_some, if_pos rfl] at hget
    refine ⟨_, hget, rfl, ?_⟩
    rintro _ ⟨⟩
    exact ⟨rfl, rfl⟩

/-- Writing a centroid adds and removes no profile. -/
theorem isSome_getById_writeCentroid (id : String) :
    (getById (writeCentroid env db winner loser centroid) id).isSome = (getById db id).isSome := by
  cases centroid with
  | none => rfl
  | some merged => rw [writeCentroid, getById_updateCentroid, Option.isSome_map]

theorem getById_relinkTranscripts (fromId toId toName : String) :
    getById (relinkTranscripts db fromId toId toName) id = getById db id := rfl

/-! ## What is read -/

/-- What the reads found. -/
theorem of_loadMerge (h : loadMerge env db winnerId loserId = .ok (winner, loser, centroid)) :
    getById db winnerId = some winner ∧ getById db loserId = some loser ∧
      (winner.embeddingDim = loser.embeddingDim → ∃ a b merged, centroid = some merged ∧
        bytesToFloats winner.embedding = some a ∧ bytesToFloats loser.embedding = some b ∧
        merged = weightedMean a winner.sampleCount.toNat b loser.sampleCount.toNat) := by
  rw [loadMerge] at h
  split at h
  · cases h
  split at h
  · cases h
  next hwinner =>
  split at h
  · cases h
  split at h
  · cases h
  next hloser =>
  split at h
  · next hdim =>
    split at h
    · cases h
    next a ha =>
    split at h
    · cases h
    next b hb =>
    split at h
    · cases h
    next merged hmerged =>
    cases h
    exact ⟨hwinner, hloser, fun _ => ⟨a, b, merged, rfl, ha, hb, of_mergeCentroids hmerged⟩⟩
  · next hdim =>
    cases h
    exact ⟨hwinner, hloser, fun h => absurd h hdim⟩

/-! ## What is written -/

/-- The database after a loser was deleted, and its transcripts were detached or not. -/
def deleted (env : SqlEnv) (db : Database) (loserId : String) : Database :=
  if env.ok 5 then detachTranscripts (deleteProfile db loserId) loserId
  else deleteProfile db loserId

/-- Where the writes leave the database. -/
theorem snd_writeMerge (env : SqlEnv) (db : Database) (winner loser : VoiceProfile)
    (centroid : Option (List Float32)) :
    (writeMerge env db winner loser centroid).2 =
      let updated := writeCentroid env db winner loser centroid
      let relinked := relinkTranscripts updated loser.id winner.id winner.name
      if centroid.isSome && !env.ok 2 then db
      else if !env.ok 3 then updated
      else if !env.ok 4 then relinked
      else deleted env relinked loser.id := by
  simp only [writeMerge, delete, deleted]
  rcases env.ok 3 with _ | _ <;> rcases env.ok 4 with _ | _ <;> rcases env.ok 5 with _ | _ <;>
    rcases centroid.isSome && !env.ok 2 with _ | _ <;> rfl

theorem getById_deleted :
    getById (deleted env db loserId) id = getById (deleteProfile db loserId) id := by
  rw [deleted]
  split <;> rfl

/-- A loser that is still there was not merged. -/
theorem not_merged {db' : Database} (h : (getById db' loser.id).isSome = true) :
    ¬Merged db db' winner loser := by
  intro hmerged
  obtain ⟨profile, hget⟩ := Option.isSome_iff_exists.mp h
  exact hmerged.gone profile (List.mem_of_find?_eq_some hget) (id_of_getById hget)

theorem transcripts_writeCentroid :
    (writeCentroid env db winner loser centroid).transcripts = db.transcripts := by
  cases centroid <;> rfl

/-- The rows of the loser point to the winner, and are not detached. -/
theorem relinked_deleted (hne : winner.id ≠ loser.id) :
    List.Forall₂ (fun row row' => row.voiceProfileId = some loser.id →
        row'.voiceProfileId = some winner.id) db.transcripts
      (deleted env (relinkTranscripts (writeCentroid env db winner loser centroid) loser.id
        winner.id winner.name) loser.id).transcripts := by
  rw [deleted]
  split
  · simp only [detachTranscripts, deleteProfile, relinkTranscripts, transcripts_writeCentroid,
      List.forall₂_map_right_iff, List.forall₂_same]
    intro row _ hrow
    simp [hrow, hne]
  · simp only [deleteProfile, relinkTranscripts, transcripts_writeCentroid,
      List.forall₂_map_right_iff, List.forall₂_same]
    intro row _ hrow
    simp [hrow]

/-- The winner after the loser was deleted. -/
theorem getById_merged (hne : winner.id ≠ loser.id) :
    getById (deleted env (relinkTranscripts (writeCentroid env db winner loser centroid) loser.id
      winner.id winner.name) loser.id) winner.id =
        getById (writeCentroid env db winner loser centroid) winner.id := by
  rw [getById_deleted, getById_deleteProfile hne, getById_relinkTranscripts]

/-- A merge whose writes succeed. -/
theorem merged_of_ne (hload : loadMerge env db winnerId loserId = .ok (winner, loser, centroid))
    (hne : winner.id ≠ loser.id) (hself : loser.isSelf = true → winner.isSelf = true) :
    Merged db (deleted env (relinkTranscripts (writeCentroid env db winner loser centroid) loser.id
      winner.id winner.name) loser.id) winner loser := by
  obtain ⟨hwinner, -, hcentroid⟩ := of_loadMerge hload
  rw [← id_of_getById hwinner] at hwinner
  obtain ⟨winner', hwinner', hisSelf, hvalues⟩ :=
    getById_writeCentroid env loser centroid hwinner
  refine ⟨fun profile hmem hid => ?_, relinked_deleted hne, winner', ?_, fun hdim => ?_, fun hor => ?_⟩
  · have hdeleted : profile ∈ (deleteProfile (relinkTranscripts (writeCentroid env db winner loser
        centroid) loser.id winner.id winner.name) loser.id).voiceProfiles := by
      rw [deleted] at hmem
      split at hmem
      · exact hmem
      · exact hmem
    simp [deleteProfile, hid] at hdeleted
  · rw [getById_merged hne, hwinner']
  · obtain ⟨a, b, merged, rfl, ha, hb, rfl⟩ := hcentroid hdim
    obtain ⟨hcount, hembedding⟩ := hvalues _ rfl
    exact ⟨hcount, a, b, ha, hb, hembedding⟩
  · rw [hisSelf]
    rcases hor with hwinner | hloser
    · exact hwinner
    · exact hself hloser

/-- A database in which both profiles still are is as it should be only if it is the old one. -/
theorem unchanged_iff {db' : Database} (hwinner : (getById db' winner.id).isSome = true)
    (hloser : (getById db' loser.id).isSome = true) :
    (db' = db ∨ Merged db db' winner loser) ∧ (getById db' winner.id).isSome = true ↔ db' = db := by
  constructor
  · rintro ⟨heq | hmerged, -⟩
    · exact heq
    · exact absurd hmerged (not_merged hloser)
  · intro heq
    exact ⟨.inl heq, hwinner⟩

/-- A database without the loser is as it should be only if the winner is another profile, and the
user's own if the loser was. -/
theorem deleted_iff (hload : loadMerge env db winnerId loserId = .ok (winner, loser, centroid)) :
    let db' := deleted env (relinkTranscripts (writeCentroid env db winner loser centroid) loser.id
      winner.id winner.name) loser.id
    (db' = db ∨ Merged db db' winner loser) ∧ (getById db' winner.id).isSome = true ↔
      winner.id ≠ loser.id ∧ (loser.isSelf = true → winner.isSelf = true) := by
  intro db'
  obtain ⟨hwinner, hloser, -⟩ := of_loadMerge hload
  rw [← id_of_getById hwinner] at hwinner
  rw [← id_of_getById hloser] at hloser
  have hgone : getById db' loser.id = none := by
    rw [getById_deleted, getById_deleteProfile_self]
  have hchanged : db' ≠ db := by
    intro heq
    rw [heq, hloser] at hgone
    cases hgone
  obtain ⟨winner', hwinner', hisSelf, -⟩ :=
    getById_writeCentroid env loser centroid hwinner
  constructor
  · rintro ⟨heq | hmerged, hsome⟩
    · exact absurd heq hchanged
    have hne : winner.id ≠ loser.id := by
      intro heq
      rw [heq, hgone] at hsome
      cases hsome
    refine ⟨hne, fun hself => ?_⟩
    obtain ⟨merged', hget, -, hself'⟩ := hmerged.conserved
    rw [getById_merged hne, hwinner'] at hget
    cases hget
    rw [← hisSelf]
    exact hself' (.inr hself)
  · rintro ⟨hne, hself⟩
    refine ⟨.inr (merged_of_ne hload hne hself), ?_⟩
    rw [getById_merged hne, hwinner']
    rfl

/-- The writes leave the tables as they were, or merge the profiles, exactly if they write all or
nothing. -/
theorem writeMerge_iff (hload : loadMerge env db winnerId loserId = .ok (winner, loser, centroid)) :
    (((writeMerge env db winner loser centroid).2 = db ∨
        Merged db (writeMerge env db winner loser centroid).2 winner loser) ∧
      (getById (writeMerge env db winner loser centroid).2 winner.id).isSome = true) ↔
      WritesAllOrNothing env db winner loser centroid := by
  obtain ⟨hwinner, hloser, -⟩ := of_loadMerge hload
  have hwinnerSome : (getById db winner.id).isSome = true := by
    rw [id_of_getById hwinner, hwinner]
    rfl
  have hloserSome : (getById db loser.id).isSome = true := by
    rw [id_of_getById hloser, hloser]
    rfl
  have hkept (id : String) (h : (getById db id).isSome = true) :
      (getById (writeCentroid env db winner loser centroid) id).isSome = true := by
    rw [isSome_getById_writeCentroid, h]
  rw [snd_writeMerge, WritesAllOrNothing]
  rcases h2 : centroid.isSome && !env.ok 2 with _ | _
  · have hwrites : ¬(centroid.isSome = true ∧ env.ok 2 = false) := by simpa using h2
    rcases h3 : env.ok 3 with _ | _
    · -- the centroid was written and the transcripts are not relinked
      simpa [hwrites] using unchanged_iff (hkept _ hwinnerSome) (hkept _ hloserSome)
    rcases h4 : env.ok 4 with _ | _
    · -- the transcripts were relinked and the loser is not deleted
      have hrelinked (id : String) (h : (getById db id).isSome = true) :
          (getById (relinkTranscripts (writeCentroid env db winner loser centroid) loser.id winner.id
            winner.name) id).isSome = true := hkept id h
      simpa [hwrites] using unchanged_iff (hrelinked _ hwinnerSome) (hrelinked _ hloserSome)
    · simpa [hwrites] using deleted_iff hload
  · -- the first write fails
    have hfails : centroid.isSome = true ∧ env.ok 2 = false := by simpa using h2
    simp [hfails, hwinnerSome]

/-- **Merging.** A merge leaves the tables as they were or merges the profiles, and keeps the winner,
if and only if it writes all or nothing once it has read what it needs. -/
theorem mergesAtomically_iff (env : SqlEnv) (db : Database) (winnerId loserId : String) :
    MergesAtomically env db winnerId loserId ↔ ∀ winner loser centroid,
      loadMerge env db winnerId loserId = .ok (winner, loser, centroid) →
        WritesAllOrNothing env db winner loser centroid := by
  rw [MergesAtomically, mergeVoiceProfilesCore]
  rcases hload : loadMerge env db winnerId loserId with message | ⟨winner, loser, centroid⟩
  · simp
  · obtain ⟨hwinner, hloser, -⟩ := of_loadMerge hload
    have hiff := writeMerge_iff hload
    rw [id_of_getById hwinner] at hiff
    simp only [hwinner, hloser, Option.isSome_some, Option.some.injEq, true_implies, Except.ok.injEq,
      Prod.mk.injEq, and_imp]
    simpa using hiff

/-! ### A merge that fails half way -/

/-- A profile with an embedding of one dimension. -/
def sampled (id name : String) (sampleCount : ℤ) : VoiceProfile :=
  ⟨id, name, none, [0, 0, 128, 63], 1, sampleCount, false, "2026-01-01", "2026-01-01"⟩

/-- A database with two profiles. -/
def twoProfiles : Database := ⟨[], [], [sampled "profile-1" "Ann" 3, sampled "profile-2" "Anne" 2]⟩

/-- The transcripts cannot be relinked. -/
def lockedTranscripts : SqlEnv := ⟨fun k => k != 3, fun _ => "2026-01-02", fun _ => ""⟩

/-- The samples of the loser are counted in the winner's, but the loser is still there; merging
again counts them twice. -/
theorem not_mergesAtomically_lockedTranscripts :
    ¬∀ (env : SqlEnv) (db : Database) (winnerId loserId : String),
      MergesAtomically env db winnerId loserId := by
  intro h
  obtain ⟨heq | ⟨winner, loser, -, hloser, hmerged⟩, -⟩ :=
    h lockedTranscripts twoProfiles "profile-1" "profile-2"
  · have hcounts := congrArg (fun db => db.voiceProfiles.map VoiceProfile.sampleCount) heq
    have h53 : [(5 : ℤ), 2] = [3, 2] := hcounts
    simp at h53
  · refine not_merged ?_ hmerged
    rw [id_of_getById hloser]
    rfl

end VoiceProfilesRepository

end MeetilyLocal
