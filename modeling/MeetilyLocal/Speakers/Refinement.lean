import MeetilyLocal.Speakers.EmbeddingMath
import Mathlib.Logic.Function.Basic

/-!
# Refining the speakers of a session

The embedding of `speaker_diarization/refinement.rs` and `profile_matcher.rs`. After a recording the
embeddings of its segments are clustered again, all at once, and each segment is given the identity
of its cluster. What a refinement may say of a segment is `of_mem_refine`.

The similarity search of the speaker model is given from outside, and the vectors of the clustering
loop are functions of the index.
-/

namespace MeetilyLocal

/-- One diarized segment in the session history. -/
structure EmbeddingRecord : Type where
  /-- the sequence number of the segment -/
  sequenceId : UInt64
  /-- its normalized embedding -/
  embedding : List Float32
  /-- the voice profile it is linked to -/
  voiceProfileId : Option String
  /-- what it is currently called -/
  label : String

/-- A stored voice profile that an embedding matches. -/
structure ProfileMatch : Type where
  /-- the id of the profile -/
  profileId : String
  /-- its display name -/
  name : String
  /-- the cosine similarity -/
  score : Float32

/-- The stored voice profiles of a session. -/
structure SpeakerProfileMatcher : Type where
  /-- `get_best_matches` of the embedding manager: at most so many ids above a threshold -/
  getBestMatches : List Float32 → Float32 → ℕ → List (String × Float32)
  /-- the display names of the loaded profiles -/
  profiles : String → Option String
  /-- the least similarity that counts as a match -/
  threshold : Float32

/-- `search` -/
def SpeakerProfileMatcher.search (matcher : SpeakerProfileMatcher) (embedding : List Float32) :
    Option ProfileMatch :=
  match (matcher.getBestMatches embedding matcher.threshold 1).getLast? with
  | none => none
  | some (id, score) => (matcher.profiles id).map fun name => ⟨id, name, score⟩

/-- What a refinement says of a segment. -/
structure RefinedAssignment : Type where
  /-- the sequence number of the segment -/
  sequenceId : UInt64
  /-- its refined label -/
  speaker : String
  /-- its refined voice profile -/
  voiceProfileId : Option String
  /-- the label or the profile may differ from what it was -/
  changed : Bool
  /-- the label it had -/
  previousSpeaker : String

namespace Refinement

open EmbeddingMath

/-! ## Clustering -/

section Clustering

variable {α : Type} [OfNat α 0] [OfNat α 1] [Add α] [Mul α] [Div α] [LT α] [LE α] [DecidableLT α]
  [DecidableLE α]

/-- The state of the merging loop over `n` points. -/
structure Merging (α : Type) : Type where
  /-- the distance of two clusters -/
  dist : ℕ → ℕ → α
  /-- the cluster was not merged into another one -/
  active : ℕ → Bool
  /-- the number of points of a cluster -/
  size : ℕ → α
  /-- the points of a cluster -/
  members : ℕ → List ℕ
  /-- the active cluster nearest to an active one -/
  nn : ℕ → Option (ℕ × α)

/-- `nearest_neighbour` -/
def nearestNeighbour (n : ℕ) (dist : ℕ → ℕ → α) (active : ℕ → Bool) (i : ℕ) : Option (ℕ × α) :=
  if !active i then none
  else (List.range n).foldl (fun best j =>
    if !active j || j == i then best
    else
      match best with
      | none => some (j, dist i j)
      | some (k, d) => if dist i j < d then some (j, dist i j) else some (k, d)) none

/-- The closest pair, by the cached nearest neighbours. -/
def closestPair (n : ℕ) (m : Merging α) : Option (ℕ × ℕ × α) :=
  (List.range n).foldl (fun best i =>
    if !m.active i then best
    else
      match m.nn i, best with
      | none, best => best
      | some (j, d), none => some (i, j, d)
      | some (j, d), some (k, l, e) => if d < e then some (i, j, d) else some (k, l, e)) none

/-- Merge cluster `j` into cluster `i`, with the distances of average linkage. -/
def mergePair (n : ℕ) (m : Merging α) (i j : ℕ) : Merging α :=
  let total := m.size i + m.size j
  let merged := fun k => (m.size i * m.dist i k + m.size j * m.dist j k) / total
  let other := fun k => m.active k && k != i && k != j
  let dist := fun a b =>
    if a == i && other b then merged b else if b == i && other a then merged a else m.dist a b
  let active := Function.update m.active j false
  -- the distances of `i` changed, and what pointed to `i` or `j` is stale
  let stale := fun k => k == i || (m.nn k).any fun (t, _) => t == i || t == j
  { dist := dist
    active := active
    size := Function.update m.size i total
    members := Function.update (Function.update m.members j []) i (m.members i ++ m.members j)
    nn := fun k =>
      if k == j then none
      else if active k && stale k then nearestNeighbour n dist active k
      else m.nn k }

/-- The merging loop: it ends when no two clusters are closer than the cutoff. Every round but the
last leaves one active cluster less, so that `n` rounds are enough. -/
def mergeClosest (n : ℕ) (maxDistance : α) : ℕ → Merging α → Merging α
  | 0, m => m
  | rounds + 1, m =>
    match closestPair n m with
    | none => m
    | some (i, j, d) =>
      if maxDistance ≤ d then m else mergeClosest n maxDistance rounds (mergePair n m i j)

/-- Number the active clusters in order: the number of the cluster of each point. -/
def clusterIndices (n : ℕ) (m : Merging α) : List ℕ :=
  let numbered := (List.range n).foldl (fun (out, cluster) i =>
    if !m.active i then (out, cluster)
    else
      ((m.members i).foldl (fun out point => Function.update out point cluster) out, cluster + 1))
    ((fun _ => 0 : ℕ → ℕ), 0)
  (List.range n).map numbered.1

/-- Average-linkage clustering of `n` points with the given distances. -/
def clusterPoints (n : ℕ) (dist : ℕ → ℕ → α) (maxDistance : α) : List ℕ :=
  let active := fun i => decide (i < n)
  clusterIndices n (mergeClosest n maxDistance n
    { dist := dist
      active := active
      size := fun _ => 1
      members := fun i => [i]
      nn := nearestNeighbour n dist active })

end Clustering

/-- `agglomerative_cluster`: the number of the cluster of each embedding. -/
def agglomerativeCluster (embeddings : List (List Float32)) (maxDistance : Float32) : List ℕ :=
  let n := embeddings.length
  if n = 0 then []
  else if n = 1 then [0]
  else
    let normed := embeddings.map l2Normalize
    -- each distance is computed once, for the pair in order
    let dist := fun i j =>
      if i == j then 0 else cosineDistance (normed.getD (min i j) []) (normed.getD (max i j) [])
    clusterPoints n dist maxDistance

/-! ## Naming the clusters -/

/-- A label, and the voice profile behind it. -/
abbrev Identity : Type := String × Option String

/-- The records of a cluster, in the order of the history. -/
def members (history : List EmbeddingRecord) (clusterOf : List ℕ) (cluster : ℕ) :
    List EmbeddingRecord :=
  ((history.zip clusterOf).filter fun entry => entry.2 == cluster).map Prod.fst

/-- The profile that is pinned most often, by the record at which its count got to the most first:
records are counted in order, and a count must be exceeded. -/
def dominantPinned : List EmbeddingRecord → (String → ℕ) → Option (EmbeddingRecord × ℕ) →
    Option (EmbeddingRecord × ℕ)
  | [], _, best => best
  | record :: records, counts, best =>
    match record.voiceProfileId with
    | none => dominantPinned records counts best
    | some profileId =>
      let count := counts profileId + 1
      let best := if best.all fun (_, most) => most < count then some (record, count) else best
      dominantPinned records (Function.update counts profileId count) best

/-- `cluster_identity`: the dominant pinned profile, or else the match of the centroid; none where
the average of the members runs out of bounds. -/
def clusterIdentity (records : List EmbeddingRecord) (matcher : Option SpeakerProfileMatcher) :
    Option (Option Identity) :=
  match dominantPinned records (fun _ => 0) none with
  | some (record, _) => some (some (record.label, record.voiceProfileId))
  | none =>
    match matcher with
    | none => some none
    | some matcher =>
      (averageAndNormalize (records.map EmbeddingRecord.embedding)).map fun centroid =>
        (matcher.search centroid).map fun found => (found.name, some found.profileId)

/-- Name the clusters in the order in which they first appear; those without an identity are
numbered. -/
def identities (history : List EmbeddingRecord) (matcher : Option SpeakerProfileMatcher)
    (clusterOf : List ℕ) : List ℕ → (ℕ → Option Identity) → ℕ → Option (ℕ → Option Identity)
  | [], identityOf, _ => some identityOf
  | cluster :: clusters, identityOf, nextLabel =>
    if (identityOf cluster).isSome then
      identities history matcher clusterOf clusters identityOf nextLabel
    else
      match clusterIdentity (members history clusterOf cluster) matcher with
      | none => none
      | some (some identity) =>
        identities history matcher clusterOf clusters
          (Function.update identityOf cluster (some identity)) nextLabel
      | some none =>
        identities history matcher clusterOf clusters
          (Function.update identityOf cluster (some ("Speaker " ++ toString nextLabel, none)))
          (nextLabel + 1)

/-! ## Refining -/

/-- What a refinement says of a record in a cluster of the given identity. -/
def assignment (record : EmbeddingRecord) (identity : Identity) : RefinedAssignment :=
  match record.voiceProfileId with
  | some profileId =>
    -- pinned: a profile match of the live pass is authoritative
    { sequenceId := record.sequenceId
      speaker := record.label
      voiceProfileId := some profileId
      changed := false
      previousSpeaker := record.label }
  | none =>
    { sequenceId := record.sequenceId
      speaker := identity.1
      voiceProfileId := identity.2
      changed := identity.1 != record.label || identity.2.isSome
      previousSpeaker := record.label }

/-- `refine`: one assignment for each record, in order; none where an average runs out of bounds. -/
def refine (history : List EmbeddingRecord) (threshold : Float32)
    (matcher : Option SpeakerProfileMatcher) : Option (List RefinedAssignment) :=
  let clusterOf := agglomerativeCluster (history.map EmbeddingRecord.embedding) (1 - threshold)
  (identities history matcher clusterOf clusterOf (fun _ => none) 1).map fun identityOf =>
    history.mapIdx fun i record =>
      assignment record ((identityOf (clusterOf.getD i 0)).getD ("", none))

/-- What a refinement says of a segment comes from a record of it. -/
theorem of_mem_refine {history : List EmbeddingRecord} {threshold : Float32}
    {matcher : Option SpeakerProfileMatcher} {assignments : List RefinedAssignment}
    {a : RefinedAssignment} (h : refine history threshold matcher = some assignments)
    (ha : a ∈ assignments) : ∃ record ∈ history, ∃ identity, a = assignment record identity := by
  obtain ⟨identityOf, -, rfl⟩ := Option.map_eq_some_iff.mp h
  obtain ⟨i, hi, rfl⟩ := List.mem_mapIdx.mp ha
  exact ⟨history[i], List.getElem_mem hi, _, rfl⟩

@[simp] theorem sequenceId_assignment (record : EmbeddingRecord) (identity : Identity) :
    (assignment record identity).sequenceId = record.sequenceId := by
  rw [assignment]
  split <;> rfl

@[simp] theorem previousSpeaker_assignment (record : EmbeddingRecord) (identity : Identity) :
    (assignment record identity).previousSpeaker = record.label := by
  rw [assignment]
  split <;> rfl

/-- One assignment for each record, in order. -/
theorem map_sequenceId_refine {history : List EmbeddingRecord} {threshold : Float32}
    {matcher : Option SpeakerProfileMatcher} {assignments : List RefinedAssignment}
    (h : refine history threshold matcher = some assignments) :
    assignments.map RefinedAssignment.sequenceId = history.map EmbeddingRecord.sequenceId := by
  obtain ⟨identityOf, -, rfl⟩ := Option.map_eq_some_iff.mp h
  refine List.ext_getElem (by simp) fun i hi hi' => ?_
  simp

/-- The record after its refinement. -/
def refined (record : EmbeddingRecord) (a : RefinedAssignment) : EmbeddingRecord :=
  { record with label := a.speaker, voiceProfileId := a.voiceProfileId }

/-- An assignment that is not marked as changed says what the record said. -/
theorem refined_of_not_changed {record : EmbeddingRecord} {identity : Identity}
    (h : (assignment record identity).changed = false) :
    refined record (assignment record identity) = record := by
  obtain ⟨sequenceId, embedding, _ | profileId, label⟩ := record
  · obtain ⟨hlabel, hprofile⟩ : identity.1 = label ∧ identity.2 = none := by
      simpa [assignment] using h
    simp [refined, assignment, hlabel, hprofile]
  · rfl

/-- Only a record without a voice profile changes. -/
theorem voiceProfileId_of_changed {record : EmbeddingRecord} {identity : Identity}
    (h : (assignment record identity).changed = true) : record.voiceProfileId = none := by
  obtain ⟨sequenceId, embedding, _ | profileId, label⟩ := record
  · rfl
  · cases h

end Refinement

end MeetilyLocal
