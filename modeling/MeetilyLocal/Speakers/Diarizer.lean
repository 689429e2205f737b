import MeetilyLocal.Speakers.Refinement
import Mathlib.Data.List.Nodup

/-!
# The diarizer of a session

The embedding of `speaker_diarization/mod.rs` and `clusterer.rs`. A diarizer gives each speech
segment a speaker: a stored voice profile that its embedding matches, or else an in-session cluster.
Every diarized segment is recorded in its history, where labels are looked up later on.

The speaker model is given from outside (`Diarizer.embedder`).
-/

namespace MeetilyLocal

open EmbeddingMath

/-! ## Online clustering -/

/-- A cluster of the live pass. -/
structure Centroid : Type where
  /-- the stable id that the label is derived from -/
  id : ℕ
  /-- the running average of the embeddings -/
  embedding : List Float32
  /-- the number of samples in it -/
  sampleCount : UInt32

/-- The greedy clusterer of the live pass. -/
structure OnlineSpeakerClusterer : Type where
  /-- the clusters, in the order in which they were seeded -/
  centroids : List Centroid
  /-- the least similarity that joins a cluster -/
  threshold : Float32
  /-- the id of the next cluster -/
  nextId : ℕ

/-- `merge_into_centroid` -/
def mergeIntoCentroid (centroid newEmb : List Float32) (prevCount : UInt32) : List Float32 :=
  let n := prevCount.toFloat32
  l2Normalize (List.zipWith (fun c e => (c * n + e) / (n + 1)) centroid newEmb ++
    centroid.drop newEmb.length)

namespace OnlineSpeakerClusterer

/-- `new` -/
def new (threshold : Float32) : OnlineSpeakerClusterer := ⟨[], threshold, 0⟩

/-- The first centroid of the greatest similarity, with its index. -/
def bestMatch (clusterer : OnlineSpeakerClusterer) (embedding : List Float32) :
    Option (ℕ × Centroid × Float32) :=
  clusterer.centroids.zipIdx.foldl (fun best (centroid, idx) =>
    let sim := dot centroid.embedding embedding
    if best.all fun (_, _, s) => s < sim then some (idx, centroid, sim) else best) none

/-- `assign`: the id of the cluster that the embedding joins or seeds. -/
def assign (clusterer : OnlineSpeakerClusterer) (embedding : List Float32) :
    ℕ × OnlineSpeakerClusterer :=
  let embedding := l2Normalize embedding
  let seeded := (clusterer.nextId, { clusterer with
    centroids := clusterer.centroids ++ [⟨clusterer.nextId, embedding, 1⟩]
    nextId := clusterer.nextId + 1 })
  match bestMatch clusterer embedding with
  | none => seeded
  | some (idx, centroid, sim) =>
    if clusterer.threshold ≤ sim then
      let joined : Centroid :=
        { centroid with
          embedding := mergeIntoCentroid centroid.embedding embedding centroid.sampleCount
          -- the count saturates
          sampleCount := max centroid.sampleCount (centroid.sampleCount + 1) }
      (centroid.id, { clusterer with centroids := clusterer.centroids.set idx joined })
    else seeded

/-- `label_for` -/
def labelFor (clusterId : ℕ) : String := "Speaker " ++ toString (clusterId + 1)

end OnlineSpeakerClusterer

/-! ## The diarizer -/

/-- Result of diarizing a single speech segment. -/
structure DiarizationResult : Type where
  /-- the name of the matched profile, or else "Speaker N" -/
  label : String
  /-- the matched profile -/
  voiceProfileId : Option String

/-- `DEFAULT_CLUSTER_THRESHOLD` -/
def defaultClusterThreshold : Float32 := 0.55

/-- `REFINE_CLUSTER_THRESHOLD` -/
def refineClusterThreshold : Float32 := defaultClusterThreshold

/-- Per-recording diarizer state. -/
structure Diarizer : Type where
  /-- the speaker embedding of 16 kHz samples -/
  embedder : List Float32 → Except String (List Float32)
  /-- the stored voice profiles -/
  profileMatcher : Option SpeakerProfileMatcher
  /-- the clusters of the live pass -/
  clusterer : OnlineSpeakerClusterer
  /-- what was diarized in the session -/
  history : List EmbeddingRecord

/-- `resolve_label`: a profile match overrides a hint, which overrides the online cluster. -/
def resolveLabel (onlineClusterLabel : String) (forcedCluster : Option ℕ)
    (profileMatch : Option ProfileMatch) : String × Option String :=
  let clusterLabel := match forcedCluster with
    | some idx => "Speaker " ++ toString (idx + 1)
    | none => onlineClusterLabel
  match profileMatch with
  | some found => (found.name, some found.profileId)
  | none => (clusterLabel, none)

namespace Diarizer

/-- `new` -/
def new (embedder : List Float32 → Except String (List Float32)) (threshold : Float32)
    (profileMatcher : Option SpeakerProfileMatcher) : Diarizer :=
  ⟨embedder, profileMatcher, .new threshold, []⟩

/-- The embedding of a segment: a precomputed one, or that of its samples. -/
def embeddingOf (d : Diarizer) (samples : List Float32) :
    Option (List Float32) → Except String (List Float32)
  | some embedding => .ok (l2Normalize embedding)
  | none => (d.embedder samples).map l2Normalize

/-- `process_inner`: diarize one speech segment and record it in the history. -/
def processInner (d : Diarizer) (sequenceId : UInt64) (samples : List Float32)
    (precomputed : Option (List Float32)) (forcedCluster : Option ℕ) :
    Except String (DiarizationResult × Diarizer) :=
  match d.embeddingOf samples precomputed with
  | .error message => .error message
  | .ok embedding =>
    -- the cluster step runs even where a match or a hint decides the label
    let (clusterId, clusterer) := d.clusterer.assign embedding
    let profileMatch := d.profileMatcher.bind fun matcher => matcher.search embedding
    let (label, voiceProfileId) :=
      resolveLabel (OnlineSpeakerClusterer.labelFor clusterId) forcedCluster profileMatch
    .ok (⟨label, voiceProfileId⟩, { d with
      clusterer := clusterer
      history := d.history ++ [⟨sequenceId, embedding, voiceProfileId, label⟩] })

/-- `process` -/
def process (d : Diarizer) (sequenceId : UInt64) (samples : List Float32)
    (precomputed : Option (List Float32)) : Except String (DiarizationResult × Diarizer) :=
  d.processInner sequenceId samples precomputed none

/-- `process_with_hint` -/
def processWithHint (d : Diarizer) (sequenceId : UInt64) (samples : List Float32)
    (precomputed : Option (List Float32)) (forcedCluster : Option ℕ) :
    Except String (DiarizationResult × Diarizer) :=
  d.processInner sequenceId samples precomputed forcedCluster

/-- `embeddings_for_label` -/
def embeddingsForLabel (d : Diarizer) (label : String) : List (List Float32) :=
  (d.history.filter fun record => record.label == label).map EmbeddingRecord.embedding

/-- `refine` -/
def refine (d : Diarizer) : Option (List RefinedAssignment) :=
  Refinement.refine d.history refineClusterThreshold d.profileMatcher

/-- The assignment of a sequence number: the last one, as a hash map collects them. -/
def bySequence (assignments : List RefinedAssignment) (sequenceId : UInt64) :
    Option RefinedAssignment :=
  assignments.reverse.find? fun a => a.sequenceId == sequenceId

/-- A record after `apply_refinement`. -/
def applyTo (assignments : List RefinedAssignment) (record : EmbeddingRecord) : EmbeddingRecord :=
  match bySequence assignments record.sequenceId with
  | some a => Refinement.refined record a
  | none => record

/-- `apply_refinement` -/
def applyRefinement (d : Diarizer) (assignments : List RefinedAssignment) : Diarizer :=
  { d with history := d.history.map (applyTo assignments) }

/-! ## What the operations do to the history -/

variable {d d' : Diarizer}

/-- Processing a segment adds the record that it returns the label of. -/
theorem of_processInner {sequenceId : UInt64} {samples : List Float32}
    {precomputed : Option (List Float32)} {forcedCluster : Option ℕ} {result : DiarizationResult}
    (h : d.processInner sequenceId samples precomputed forcedCluster = .ok (result, d')) :
    ∃ embedding, d'.history =
      d.history ++ [⟨sequenceId, embedding, result.voiceProfileId, result.label⟩] := by
  rw [processInner] at h
  split at h
  · cases h
  · next embedding _ =>
    obtain ⟨rfl, rfl⟩ := Prod.mk.inj (Except.ok.inj h)
    exact ⟨embedding, rfl⟩

@[simp] theorem sequenceId_applyTo (assignments : List RefinedAssignment)
    (record : EmbeddingRecord) :
    (applyTo assignments record).sequenceId = record.sequenceId := by
  rw [applyTo]
  split <;> rfl

/-- Where sequence numbers do not recur, a record is given the assignment made for itself. -/
theorem applyTo_refine {assignments : List RefinedAssignment}
    (hdistinct : (d.history.map EmbeddingRecord.sequenceId).Nodup)
    (h : d.refine = some assignments) {record : EmbeddingRecord} (hmem : record ∈ d.history) :
    ∃ identity, Refinement.assignment record identity ∈ assignments ∧
      applyTo assignments record =
        Refinement.refined record (Refinement.assignment record identity) := by
  have hnumbers := Refinement.map_sequenceId_refine h
  rw [applyTo]
  split
  · next a hfound =>
    have ha : a ∈ assignments := List.mem_reverse.mp (List.mem_of_find?_eq_some hfound)
    obtain ⟨other, hother, identity, rfl⟩ := Refinement.of_mem_refine h ha
    have hsame : other.sequenceId = record.sequenceId := by simpa using List.find?_some hfound
    obtain rfl : other = record := List.inj_on_of_nodup_map hdistinct hother hmem hsame
    exact ⟨identity, ha, rfl⟩
  · next hnone =>
    -- every record has an assignment
    have hnumber : record.sequenceId ∈ assignments.map RefinedAssignment.sequenceId :=
      hnumbers ▸ List.mem_map_of_mem hmem
    obtain ⟨a, ha, heq⟩ := List.mem_map.mp hnumber
    exact absurd heq (by simpa using List.find?_eq_none.mp hnone a (List.mem_reverse.mpr ha))

end Diarizer

end MeetilyLocal
