import MeetilyLocal.Library.Decimal
import MeetilyLocal.Speakers.Diarizer

/-!
# Fallback labels

A segment that no stored profile matches is called "Speaker N". Where the caller gives a hint, `N` is
the number of a speaker of the offline pass, and else it is the number of an online cluster; the
online clusterer counts the segments with a hint, too. The two numberings are told apart in no
label, so segments of two people can have one (`Diarizer.not_tellsApart`): it happens exactly where
an offline speaker of a segment without a match has the number of the online cluster of a segment
without a match and without a hint (`Diarizer.tellsApart_iff`).
-/

namespace MeetilyLocal

namespace Diarizer

/-! ## Sequences of calls -/

/-- A call that diarizes a segment. -/
inductive Call : Type where
  /-- `process` -/
  | process (sequenceId : UInt64) (samples : List Float32)
      (precomputed : Option (List Float32)) : Call
  /-- `process_with_hint` -/
  | processWithHint (sequenceId : UInt64) (samples : List Float32)
      (precomputed : Option (List Float32)) (forcedCluster : Option ℕ) : Call

/-- The speaker of the offline pass that a call is given. -/
def Call.hint : Call → Option ℕ
  | .process _ _ _ => none
  | .processWithHint _ _ _ forcedCluster => forcedCluster

/-- What a call embeds, if it can be. -/
def embedding? (d : Diarizer) : Call → Option (List Float32)
  | .process _ samples precomputed => (d.embeddingOf samples precomputed).toOption
  | .processWithHint _ samples precomputed _ => (d.embeddingOf samples precomputed).toOption

/-- What a call does. -/
def run (d : Diarizer) : Call → Except String (DiarizationResult × Diarizer)
  | .process sequenceId samples precomputed => d.process sequenceId samples precomputed
  | .processWithHint sequenceId samples precomputed forcedCluster =>
    d.processWithHint sequenceId samples precomputed forcedCluster

/-- A segment that was diarized. -/
structure Segment : Type where
  /-- the offline hint that it carries -/
  hint : Option ℕ
  /-- the online cluster that it was assigned to -/
  cluster : Option ℕ
  /-- what the call returned -/
  result : DiarizationResult

/-- The segments that a sequence of calls diarizes. A call that fails leaves nothing. -/
def segments (d : Diarizer) : List Call → List Segment
  | [] => []
  | call :: calls =>
    match d.run call with
    | .error _ => segments d calls
    | .ok (result, d') =>
      let cluster := (d.embedding? call).map fun embedding => (d.clusterer.assign embedding).1
      ⟨call.hint, cluster, result⟩ :: segments d' calls

/-- Two segments without a match have one label only if they have the same hint, or no hint and the
same online cluster. -/
def TellsApart (segments : List Segment) : Prop :=
  ∀ s ∈ segments, ∀ t ∈ segments,
    s.result.voiceProfileId = none → t.result.voiceProfileId = none →
    s.result.label = t.result.label →
      (∃ idx, s.hint = some idx ∧ t.hint = some idx) ∨
      (s.hint = none ∧ t.hint = none ∧ s.cluster = t.cluster)

/-! ## What the labels depend on -/

/-- What matters of a call: its hint and its embedding. -/
structure Input : Type where
  /-- the offline hint -/
  hint : Option ℕ
  /-- the normalized embedding -/
  embedding : List Float32

/-- What the calls are about whose segments can be embedded. -/
def inputs (d : Diarizer) (calls : List Call) : List Input :=
  calls.filterMap fun call => (d.embedding? call).map (⟨call.hint, ·⟩)

/-- Whether no stored profile matches. -/
def unmatched (d : Diarizer) (embedding : List Float32) : Bool :=
  (d.profileMatcher.bind fun matcher => matcher.search embedding).isNone

/-- The clusters that embeddings are assigned to, one after the other. -/
def onlineClusters (clusterer : OnlineSpeakerClusterer) : List (List Float32) → List ℕ
  | [] => []
  | embedding :: embeddings =>
    (clusterer.assign embedding).1 :: onlineClusters (clusterer.assign embedding).2 embeddings

/-- The inputs with their online clusters. -/
def clustered (d : Diarizer) (calls : List Call) : List (Input × ℕ) :=
  (d.inputs calls).zip (onlineClusters d.clusterer ((d.inputs calls).map Input.embedding))

/-- No hint of an unmatched segment is the number of the online cluster of an unmatched segment
without a hint. -/
def HintsApart (d : Diarizer) (calls : List Call) : Prop :=
  ∀ hinted ∈ d.clustered calls, ∀ unhinted ∈ d.clustered calls,
    d.unmatched hinted.1.embedding = true → d.unmatched unhinted.1.embedding = true →
    unhinted.1.hint = none → hinted.1.hint ≠ some unhinted.2

/-- The segment of an input and its online cluster. -/
def segmentOf (d : Diarizer) (input : Input × ℕ) : Segment :=
  let (label, voiceProfileId) := resolveLabel (OnlineSpeakerClusterer.labelFor input.2)
    input.1.hint (d.profileMatcher.bind fun matcher => matcher.search input.1.embedding)
  ⟨input.1.hint, some input.2, ⟨label, voiceProfileId⟩⟩

variable {d : Diarizer} {input : Input × ℕ}

theorem processInner_eq (d : Diarizer) (sequenceId : UInt64) (samples : List Float32)
    (precomputed : Option (List Float32)) (forcedCluster : Option ℕ) :
    (∃ message, d.processInner sequenceId samples precomputed forcedCluster = .error message ∧
      (d.embeddingOf samples precomputed).toOption = none) ∨
    ∃ embedding history, (d.embeddingOf samples precomputed).toOption = some embedding ∧
      d.processInner sequenceId samples precomputed forcedCluster =
        .ok ((d.segmentOf (⟨forcedCluster, embedding⟩, (d.clusterer.assign embedding).1)).result,
          { d with clusterer := (d.clusterer.assign embedding).2, history := history }) := by
  rw [processInner]
  cases d.embeddingOf samples precomputed with
  | error message => exact .inl ⟨message, rfl, rfl⟩
  | ok embedding => exact .inr ⟨embedding, _, rfl, rfl⟩

/-- One call: it fails exactly where its segment cannot be embedded. -/
theorem run_eq (d : Diarizer) (call : Call) :
    (∃ message, d.run call = .error message ∧ d.embedding? call = none) ∨
    ∃ embedding history, d.embedding? call = some embedding ∧
      d.run call =
        .ok ((d.segmentOf (⟨call.hint, embedding⟩, (d.clusterer.assign embedding).1)).result,
          { d with clusterer := (d.clusterer.assign embedding).2, history := history }) := by
  cases call with
  | process sequenceId samples precomputed =>
    exact d.processInner_eq sequenceId samples precomputed none
  | processWithHint sequenceId samples precomputed forcedCluster =>
    exact d.processInner_eq sequenceId samples precomputed forcedCluster

/-- **What is diarized**: each input with its online cluster, labelled for itself. -/
theorem segments_eq (d : Diarizer) (calls : List Call) :
    d.segments calls = (d.clustered calls).map d.segmentOf := by
  induction calls generalizing d with
  | nil => rfl
  | cons call calls ih =>
    rw [segments]
    rcases run_eq d call with ⟨message, hrun, hnone⟩ | ⟨embedding, history, hsome, hrun⟩
    · have hinputs : d.inputs (call :: calls) = d.inputs calls := by
        simp [inputs, hnone]
      rw [hrun, clustered, hinputs]
      exact ih d
    · have hinputs : d.inputs (call :: calls) = ⟨call.hint, embedding⟩ :: d.inputs calls := by
        simp [inputs, hsome]
      rw [hrun, clustered, hinputs]
      simp only [hsome, ih]
      rfl

/-! ## One label -/

theorem speaker_injective {m n : ℕ}
    (h : "Speaker " ++ toString (m + 1) = "Speaker " ++ toString (n + 1)) : m = n := by
  have hrepr : (m + 1).repr = (n + 1).repr := (String.append_right_inj "Speaker ").mp h
  exact Nat.succ_injective (Decimal.repr_injective hrepr)

@[simp]
theorem segmentOf_hint : (d.segmentOf input).hint = input.1.hint := rfl

@[simp]
theorem segmentOf_cluster : (d.segmentOf input).cluster = some input.2 := rfl

/-- A segment without a match is called by its number: its hint or else its cluster. -/
theorem segmentOf_label (h : d.unmatched input.1.embedding = true) :
    (d.segmentOf input).result =
      ⟨"Speaker " ++ toString (input.1.hint.getD input.2 + 1), none⟩ := by
  have hnone : (d.profileMatcher.bind fun matcher => matcher.search input.1.embedding) = none :=
    Option.isNone_iff_eq_none.mp h
  rw [segmentOf, hnone]
  cases hhint : input.1.hint with
  | none => rfl
  | some idx => rfl

@[simp]
theorem segmentOf_voiceProfileId :
    (d.segmentOf input).result.voiceProfileId = none ↔ d.unmatched input.1.embedding = true := by
  rw [segmentOf, unmatched]
  cases d.profileMatcher.bind fun matcher => matcher.search input.1.embedding with
  | none => simp [resolveLabel]
  | some found => simp [resolveLabel]

/-- **Labels tell apart** whom the hints and the online clusters do, exactly if no hint is the number
of an online cluster that is used without one. -/
theorem tellsApart_iff (d : Diarizer) (calls : List Call) :
    TellsApart (d.segments calls) ↔ d.HintsApart calls := by
  rw [segments_eq]
  constructor
  · intro h hinted hhinted unhinted hunhinted hmatch hmatch' hnone hsame
    have hlabel : (d.segmentOf hinted).result.label = (d.segmentOf unhinted).result.label := by
      rw [segmentOf_label hmatch, segmentOf_label hmatch', hsame, hnone]
      rfl
    rcases h _ (List.mem_map_of_mem hhinted) _ (List.mem_map_of_mem hunhinted)
      (segmentOf_voiceProfileId.mpr hmatch) (segmentOf_voiceProfileId.mpr hmatch') hlabel with
      ⟨idx, -, hidx⟩ | ⟨hidx, -, -⟩
    · simp [hnone] at hidx
    · simp [hsame] at hidx
  · intro h s hs t ht hmatch hmatch' hlabel
    obtain ⟨first, hfirst, rfl⟩ := List.mem_map.mp hs
    obtain ⟨second, hsecond, rfl⟩ := List.mem_map.mp ht
    rw [segmentOf_voiceProfileId] at hmatch hmatch'
    rw [segmentOf_label hmatch, segmentOf_label hmatch'] at hlabel
    have hnumber := speaker_injective hlabel
    simp only [segmentOf_hint, segmentOf_cluster]
    -- the two numberings, of each of the segments
    cases hhint : first.1.hint with
    | none =>
      cases hhint' : second.1.hint with
      | none =>
        rw [hhint, hhint', Option.getD_none, Option.getD_none] at hnumber
        exact .inr ⟨rfl, rfl, congrArg some hnumber⟩
      | some idx =>
        rw [hhint, hhint', Option.getD_none, Option.getD_some] at hnumber
        exact absurd (hhint'.trans (congrArg some hnumber.symm))
          (h second hsecond first hfirst hmatch' hmatch hhint)
    | some idx =>
      cases hhint' : second.1.hint with
      | none =>
        rw [hhint, hhint', Option.getD_none, Option.getD_some] at hnumber
        exact absurd (hhint.trans (congrArg some hnumber))
          (h first hfirst second hsecond hmatch hmatch' hhint')
      | some idx' =>
        rw [hhint, hhint', Option.getD_some, Option.getD_some] at hnumber
        exact .inl ⟨idx, rfl, by rw [hnumber]⟩

/-! ### A segment outside the offline turns -/

/-- A diarizer without stored profiles. -/
def freshDiarizer : Diarizer := .new (fun _ => .error "no model") defaultClusterThreshold none

/-- The first segment is outside all offline turns, and the second one is of another voice, the first
speaker of the offline pass. -/
def mixedCalls : List Call :=
  [.processWithHint 0 [] (some [1, 0]) none, .processWithHint 1 [] (some [0, 1]) (some 0)]

/-- Both are called "Speaker 1". -/
theorem not_tellsApart : ¬ TellsApart (freshDiarizer.segments mixedCalls) := by
  have hfirst : (⟨none, some 0, ⟨"Speaker 1", none⟩⟩ : Segment) ∈
      freshDiarizer.segments mixedCalls := List.mem_cons_self
  have hsecond : ∃ cluster, (⟨some 0, cluster, ⟨"Speaker 1", none⟩⟩ : Segment) ∈
      freshDiarizer.segments mixedCalls := ⟨_, List.mem_cons_of_mem _ List.mem_cons_self⟩
  obtain ⟨cluster, hsecond⟩ := hsecond
  intro h
  rcases h _ hfirst _ hsecond rfl rfl rfl with ⟨idx, hidx, -⟩ | ⟨-, hhint, -⟩
  · cases hidx
  · cases hhint

end Diarizer

end MeetilyLocal
