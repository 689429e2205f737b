import MeetilyLocal.Audio.Vad
import MeetilyLocal.Audio.PartialWorker

/-!
# Snapshots of an utterance in progress

The embedding of `partial_emit_decision` and of the part of `AudioPipeline::run_vad_for_source` that
emits partial snapshots (`audio/pipeline.rs`), for one source: the audio of the utterance in progress
is sent whenever there are 1.2 s more of it.

The sample type is a parameter, and what the detector says of each window is given from outside.
-/

namespace MeetilyLocal

namespace PartialSnapshots

universe u

open Vad

/-- Per-source bookkeeping that throttles streaming-partial emission. -/
structure PartialEmitState : Type where
  /-- utterance counter, bumped on each silence→speech transition -/
  utteranceId : ℕ
  /-- whether speech was active on the previous window -/
  wasActive : Bool
  /-- partial-buffer length at the last emitted snapshot -/
  samplesAtLastEmit : ℕ
  deriving DecidableEq

/-- 0.8 s @ 16 kHz -/
def partialMinSamples : ℕ := 12800

/-- 1.2 s @ 16 kHz -/
def partialEmitIntervalSamples : ℕ := 19200

/-- Decide whether a snapshot should be emitted: the utterance id when it should. -/
def partialEmitDecision (state : PartialEmitState) (active : Bool) (partialLen : ℕ) :
    PartialEmitState × Option ℕ :=
  -- edge: silence → speech starts a new utterance
  let state := if active && !state.wasActive then
      { state with utteranceId := state.utteranceId + 1, samplesAtLastEmit := 0 }
    else state
  -- edge: speech → silence ends the utterance
  let state := if !active && state.wasActive then { state with samplesAtLastEmit := 0 } else state
  let state := { state with wasActive := active }
  if !active || partialLen < partialMinSamples then (state, none)
  else if partialLen - state.samplesAtLastEmit < partialEmitIntervalSamples then (state, none)
  else ({ state with samplesAtLastEmit := partialLen }, some state.utteranceId)

/-- A snapshot of the utterance in progress. -/
structure Snapshot (α : Type u) : Type u where
  /-- which utterance it is -/
  utteranceId : ℕ
  /-- its audio so far -/
  samples : List α
  deriving DecidableEq

/-- What the pipeline has for a source. -/
structure SourceVad (α : Type u) : Type u where
  /-- its VAD processor -/
  processor : ContinuousVadProcessor α
  /-- its throttle -/
  emit : PartialEmitState
  /-- the snapshots it has sent -/
  snapshots : List (Snapshot α)

/-- What happens to a source. -/
inductive VadStep (α : Type u) : Type u where
  /-- a window, resampled; a segment is completed or not, and then speech is active or not -/
  | window (samples : List α) (finalised active : Bool) : VadStep α
  /-- a window that cannot be resampled -/
  | failed : VadStep α
  /-- the processor is flushed, with the tail of the downsampler -/
  | flush (tail : List α) : VadStep α

variable {α : Type u}

namespace SourceVad

/-- At the start. -/
def start : SourceVad α := ⟨⟨[]⟩, ⟨0, false, 0⟩, []⟩

/-- `run_vad_for_source` up to the dispatch of the segments, or a flush. -/
def step (s : SourceVad α) : VadStep α → SourceVad α
  | .window samples finalised active =>
    let processor := s.processor.processAudio samples finalised
    let (emit, utteranceId) :=
      partialEmitDecision s.emit active processor.currentUtterance16k.length
    ⟨processor, emit, s.snapshots ++
      (utteranceId.map fun id => ⟨id, processor.currentUtterance16k⟩).toList⟩
  | .failed => s
  | .flush tail => { s with processor := s.processor.flush tail }

/-- After a series of steps. -/
def run (steps : List (VadStep α)) : SourceVad α := steps.foldl step start

end SourceVad

/-! ## A decision -/

/-- The throttle at a window with speech, before it is decided whether to emit. -/
def PartialEmitState.speaking (state : PartialEmitState) : PartialEmitState :=
  if state.wasActive then state else ⟨state.utteranceId + 1, true, 0⟩

theorem partialEmitDecision_silent (state : PartialEmitState) (partialLen : ℕ) :
    ∃ samples, partialEmitDecision state false partialLen =
      (⟨state.utteranceId, false, samples⟩, none) := by
  rcases state with ⟨utteranceId, _ | _, samples⟩
  · exact ⟨samples, rfl⟩
  · exact ⟨0, rfl⟩

theorem partialEmitDecision_speaking (state : PartialEmitState) (partialLen : ℕ) :
    partialEmitDecision state true partialLen =
      if partialLen < partialMinSamples then (state.speaking, none)
      else if partialLen - state.speaking.samplesAtLastEmit < partialEmitIntervalSamples then
        (state.speaking, none)
      else ({ state.speaking with samplesAtLastEmit := partialLen },
        some state.speaking.utteranceId) := by
  rcases state with ⟨utteranceId, _ | _, samples⟩ <;>
    simp [partialEmitDecision, PartialEmitState.speaking]

/-- A snapshot of this length is due. -/
def Due (state : PartialEmitState) (partialLen : ℕ) : Prop :=
  partialMinSamples ≤ partialLen ∧
    partialEmitIntervalSamples ≤ partialLen - state.samplesAtLastEmit

theorem partialEmitDecision_due {state : PartialEmitState} {partialLen : ℕ}
    (h : Due state.speaking partialLen) :
    partialEmitDecision state true partialLen =
      ({ state.speaking with samplesAtLastEmit := partialLen },
        some state.speaking.utteranceId) := by
  rw [partialEmitDecision_speaking, if_neg (Nat.not_lt.mpr h.1), if_neg (Nat.not_lt.mpr h.2)]

theorem partialEmitDecision_not_due {state : PartialEmitState} {partialLen : ℕ}
    (h : ¬Due state.speaking partialLen) :
    partialEmitDecision state true partialLen = (state.speaking, none) := by
  rw [partialEmitDecision_speaking]
  split
  · rfl
  next hmin =>
    refine if_pos (Nat.not_le.mp fun hinterval => ?_)
    exact h ⟨Nat.not_lt.mp hmin, hinterval⟩

/-! ## Utterances are counted -/

/-- A decision numbers its snapshot by the utterance, and goes back to none before. -/
theorem partialEmitDecision_id (state : PartialEmitState) (active : Bool) (partialLen : ℕ) :
    state.utteranceId ≤ (partialEmitDecision state active partialLen).1.utteranceId ∧
      ∀ id ∈ (partialEmitDecision state active partialLen).2,
        id = (partialEmitDecision state active partialLen).1.utteranceId := by
  have hspeaking : state.utteranceId ≤ state.speaking.utteranceId := by
    rw [PartialEmitState.speaking]
    split
    · exact le_rfl
    · exact Nat.le_succ _
  cases active with
  | false =>
    obtain ⟨lastEmit, hdecision⟩ := partialEmitDecision_silent state partialLen
    rw [hdecision]
    exact ⟨le_rfl, by simp⟩
  | true =>
    by_cases hdue : Due state.speaking partialLen
    · rw [partialEmitDecision_due hdue]
      exact ⟨hspeaking, by simp⟩
    · rw [partialEmitDecision_not_due hdue]
      exact ⟨hspeaking, by simp⟩

/-- The snapshots of a source are of one utterance after the other. -/
structure Counted (s : SourceVad α) : Prop where
  /-- in the order in which they were sent -/
  pairwise : s.snapshots.Pairwise fun a b => a.utteranceId ≤ b.utteranceId
  /-- none is of a later utterance than the current one -/
  le : ∀ snapshot ∈ s.snapshots, snapshot.utteranceId ≤ s.emit.utteranceId

theorem Counted.step {s : SourceVad α} (h : Counted s) (step : VadStep α) :
    Counted (s.step step) := by
  cases step with
  | window samples finalised active =>
    obtain ⟨hle, hid⟩ := partialEmitDecision_id s.emit active
      (s.processor.processAudio samples finalised).currentUtterance16k.length
    have hsent : ∀ snapshot ∈ ((partialEmitDecision s.emit active
        (s.processor.processAudio samples finalised).currentUtterance16k.length).2.map fun id =>
          (⟨id, (s.processor.processAudio samples finalised).currentUtterance16k⟩ :
            Snapshot α)).toList,
        snapshot.utteranceId = (partialEmitDecision s.emit active
          (s.processor.processAudio samples finalised).currentUtterance16k.length).1.utteranceId := by
      intro snapshot hsnapshot
      obtain ⟨id, hmem, rfl⟩ := Option.map_eq_some_iff.mp (Option.mem_toList.mp hsnapshot)
      exact hid id hmem
    constructor
    · refine List.pairwise_append.mpr ⟨h.pairwise, ?_, fun a ha b hb => ?_⟩
      · exact List.pairwise_of_forall_mem_list fun a ha b hb => by rw [hsent a ha, hsent b hb]
      · rw [hsent b hb]
        exact (h.le a ha).trans hle
    · intro snapshot hsnapshot
      rcases List.mem_append.mp hsnapshot with hmem | hmem
      · exact (h.le snapshot hmem).trans hle
      · exact (hsent snapshot hmem).le
  | failed => exact h
  | flush tail => exact ⟨h.pairwise, h.le⟩

theorem counted_run (steps : List (VadStep α)) : Counted (SourceVad.run steps) := by
  induction steps using List.reverseRecOn with
  | nil => exact ⟨.nil, by simp [SourceVad.run, SourceVad.start]⟩
  | append_singleton steps step ih =>
    rw [SourceVad.run, List.foldl_append]
    exact ih.step step

/-- **The task that decodes them gets utterances in order**: from each source the snapshots that were
sent, or the first of them. -/
theorem utterancesInOrder_of_snapshots {ticks : List PartialWorker.Tick}
    {steps : DeviceType → List (VadStep Float32)}
    (h : ∀ source, ((ticks.flatMap fun tick => tick.chunks.filter fun chunk =>
        chunk.source = source).map fun chunk => (⟨chunk.utteranceId, chunk.samples⟩ : Snapshot _)) <+:
      (SourceVad.run (steps source)).snapshots) : PartialWorker.UtterancesInOrder ticks := by
  intro source
  have hpairwise := (counted_run (steps source)).pairwise.sublist (h source).sublist
  rw [List.pairwise_map] at hpairwise
  exact hpairwise

/-! ## Following an utterance -/

/-- How much audio of the utterance in progress there is since speech became active, the last segment
was completed or the last snapshot was sent. -/
def newAudio (s : SourceVad α) (new : ℕ) : VadStep α → ℕ
  | .window samples finalised active =>
    let sent := (s.step (.window samples finalised active)).snapshots.length ≠ s.snapshots.length
    if sent ∨ finalised = true ∨ active = false then 0 else new + samples.length
  | .failed => new
  | .flush tail => if s.emit.wasActive then new + tail.length else new

/-- A series of steps with the count of the new audio. -/
def watch (steps : List (VadStep α)) : SourceVad α × ℕ :=
  steps.foldl (fun watched step => (watched.1.step step, newAudio watched.1 watched.2 step))
    (.start, 0)

theorem watch_concat (steps : List (VadStep α)) (step : VadStep α) :
    watch (steps ++ [step]) =
      ((watch steps).1.step step, newAudio (watch steps).1 (watch steps).2 step) := by
  simp [watch]

theorem watch_fst (steps : List (VadStep α)) : (watch steps).1 = .run steps := by
  induction steps using List.reverseRecOn with
  | nil => rfl
  | append_singleton steps step ih =>
    rw [watch_concat, ih, SourceVad.run, SourceVad.run, List.foldl_append]
    rfl

/-- A snapshot extends the one before it, if it is of the same utterance. -/
def Extends (a b : Snapshot α) : Prop :=
  a.utteranceId = b.utteranceId → a.samples <+: b.samples

/-- What the snapshots are meant to be: each extends the one before it, and while an utterance is
active there are never 1.2 s of new audio in it after a window. -/
structure Followed (steps : List (VadStep α)) : Prop where
  /-- snapshots of an utterance extend each other -/
  chain : (SourceVad.run steps).snapshots.IsChain Extends
  /-- a snapshot is sent after 1.2 s of new audio -/
  prompt : ∀ before samples finalised active after,
    steps = before ++ .window samples finalised active :: after →
    (watch (before ++ [.window samples finalised active])).2 < partialEmitIntervalSamples

/-- A step that the snapshots can follow. If a segment is completed while speech goes on, no snapshot
of the utterance was sent yet; and while speech is active what is kept is less than 30 s. -/
def Followable (s : SourceVad α) : VadStep α → Prop
  | .window _ finalised active => active = true →
      (finalised = true → s.emit.speaking.samplesAtLastEmit = 0) ∧
        s.processor.currentUtterance16k.length < maxPartialSamples
  | .failed => True
  | .flush _ => s.emit.wasActive = true →
      s.processor.currentUtterance16k.length < maxPartialSamples

/-- What holds along a run of such steps. -/
structure Following (s : SourceVad α) (new : ℕ) : Prop where
  /-- the new audio came after the last snapshot -/
  le_length : s.emit.wasActive = true →
    s.emit.samplesAtLastEmit + new ≤ s.processor.currentUtterance16k.length
  /-- without an utterance there is no new audio in it -/
  new_eq : s.emit.wasActive = false → new = 0
  /-- snapshots of an utterance extend each other -/
  chain : s.snapshots.IsChain Extends
  /-- the last one is not of a later utterance -/
  id_le : ∀ last ∈ s.snapshots.getLast?, last.utteranceId ≤ s.emit.utteranceId
  /-- the audio of the current utterance extends its last one -/
  last_prefix : s.emit.wasActive = true → ∀ last ∈ s.snapshots.getLast?,
    last.utteranceId = s.emit.utteranceId →
      last.samples <+: s.processor.currentUtterance16k ∧ s.emit.samplesAtLastEmit ≠ 0

theorem following_start : Following (.start : SourceVad α) 0 where
  le_length := nofun
  new_eq := fun _ => rfl
  chain := .nil
  id_le := by simp [SourceVad.start]
  last_prefix := nofun

/-! ## The windows, case by case -/

section Windows

variable {s : SourceVad α} {samples : List α} {finalised : Bool} {new : ℕ}

theorem step_silent (s : SourceVad α) (samples : List α) (finalised : Bool) :
    ∃ lastEmit, s.step (.window samples finalised false) =
      ⟨s.processor.processAudio samples finalised, ⟨s.emit.utteranceId, false, lastEmit⟩,
        s.snapshots⟩ := by
  obtain ⟨lastEmit, hdecision⟩ := partialEmitDecision_silent s.emit
    (s.processor.processAudio samples finalised).currentUtterance16k.length
  refine ⟨lastEmit, ?_⟩
  simp only [SourceVad.step, hdecision, Option.map_none, Option.toList_none, List.append_nil]

theorem step_due (h : Due s.emit.speaking
      (s.processor.processAudio samples finalised).currentUtterance16k.length) :
    s.step (.window samples finalised true) =
      let processor := s.processor.processAudio samples finalised
      ⟨processor,
        { s.emit.speaking with samplesAtLastEmit := processor.currentUtterance16k.length },
        s.snapshots ++ [⟨s.emit.speaking.utteranceId, processor.currentUtterance16k⟩]⟩ := by
  simp only [SourceVad.step, partialEmitDecision_due h, Option.map_some, Option.toList_some]

theorem step_not_due (h : ¬Due s.emit.speaking
      (s.processor.processAudio samples finalised).currentUtterance16k.length) :
    s.step (.window samples finalised true) =
      ⟨s.processor.processAudio samples finalised, s.emit.speaking, s.snapshots⟩ := by
  simp only [SourceVad.step, partialEmitDecision_not_due h, Option.map_none, Option.toList_none,
    List.append_nil]

@[simp] theorem wasActive_speaking (state : PartialEmitState) :
    state.speaking.wasActive = true := by
  rw [PartialEmitState.speaking]
  split
  · assumption
  · rfl

/-- What holds of the utterance of a window with speech, be it a new one. -/
theorem Following.speaking (h : Following s new) :
    s.emit.speaking.samplesAtLastEmit + new ≤ s.processor.currentUtterance16k.length ∧
      ∀ last ∈ s.snapshots.getLast?, last.utteranceId ≤ s.emit.speaking.utteranceId ∧
        (last.utteranceId = s.emit.speaking.utteranceId →
          last.samples <+: s.processor.currentUtterance16k ∧
            s.emit.speaking.samplesAtLastEmit ≠ 0) := by
  rw [PartialEmitState.speaking]
  split
  next hactive =>
    exact ⟨h.le_length hactive, fun last hlast =>
      ⟨h.id_le last hlast, h.last_prefix hactive last hlast⟩⟩
  next hidle =>
    rw [h.new_eq (by simpa using hidle)]
    refine ⟨Nat.zero_le _, fun last hlast => ?_⟩
    have hlt : last.utteranceId < s.emit.utteranceId + 1 := Nat.lt_succ_of_le (h.id_le last hlast)
    exact ⟨hlt.le, fun hid => absurd hid hlt.ne⟩

/-- **Silence** ends the utterance. -/
theorem Following.silent (h : Following s new) (samples : List α) (finalised : Bool) :
    Following (s.step (.window samples finalised false)) 0 := by
  obtain ⟨lastEmit, hstep⟩ := step_silent s samples finalised
  rw [hstep]
  exact ⟨nofun, fun _ => rfl, h.chain, h.id_le, nofun⟩

/-- **A cut** while speech goes on starts over, if no snapshot of the utterance was sent. -/
theorem Following.cut (h : Following s new) (samples : List α)
    (hzero : s.emit.speaking.samplesAtLastEmit = 0) :
    Following (s.step (.window samples true true)) 0 := by
  obtain ⟨-, hlast⟩ := h.speaking
  have hnot : ¬Due s.emit.speaking
      (s.processor.processAudio samples true).currentUtterance16k.length := by
    rintro ⟨hmin, -⟩
    have hnil : (s.processor.processAudio samples true).currentUtterance16k = [] := rfl
    rw [hnil, List.length_nil] at hmin
    exact absurd hmin (by decide)
  rw [step_not_due hnot]
  refine ⟨fun _ => ?_, fun _ => rfl, h.chain, fun last hmem => (hlast last hmem).1,
    fun _ last hmem hid => ?_⟩
  · rw [hzero]
    exact Nat.zero_le _
  · exact absurd hzero ((hlast last hmem).2 hid).2

/-- **More speech** is followed, and in time. -/
theorem Following.more (h : Following s new) (samples : List α)
    (hroom : s.processor.currentUtterance16k.length < maxPartialSamples) :
    Following (s.step (.window samples false true))
        (newAudio s new (.window samples false true)) ∧
      newAudio s new (.window samples false true) < partialEmitIntervalSamples := by
  obtain ⟨hle, hlast⟩ := h.speaking
  have hbuffer : (s.processor.processAudio samples false).currentUtterance16k =
      s.processor.currentUtterance16k ++ samples :=
    ContinuousVadProcessor.feed16k_of_lt samples hroom
  have hlength : (s.processor.processAudio samples false).currentUtterance16k.length =
      s.processor.currentUtterance16k.length + samples.length := by
    rw [hbuffer, List.length_append]
  have hgrown : ∀ last ∈ s.snapshots.getLast?,
      last.utteranceId = s.emit.speaking.utteranceId →
        last.samples <+: (s.processor.processAudio samples false).currentUtterance16k := by
    intro last hmem hid
    rw [hbuffer]
    exact ((hlast last hmem).2 hid).1.trans (List.prefix_append _ _)
  by_cases hdue : Due s.emit.speaking
      (s.processor.processAudio samples false).currentUtterance16k.length
  · have hzero : newAudio s new (.window samples false true) = 0 := by
      rw [newAudio, step_due hdue]
      simp
    rw [hzero, step_due hdue]
    refine ⟨⟨fun _ => le_rfl, fun _ => rfl, ?_, ?_, ?_⟩, by decide⟩
    · refine List.isChain_append.mpr ⟨h.chain, .singleton _, fun last hmem next hnext => ?_⟩
      obtain rfl := by simpa using hnext
      exact fun hid => hgrown last hmem hid
    · intro last hmem
      obtain rfl := by simpa using hmem
      exact le_rfl
    · intro _ last hmem _
      obtain rfl := by simpa using hmem
      exact ⟨List.prefix_rfl, (Nat.lt_of_lt_of_le (by decide) hdue.1).ne'⟩
  · have hnew : newAudio s new (.window samples false true) = new + samples.length := by
      rw [newAudio, step_not_due hdue]
      simp
    rw [hnew, step_not_due hdue]
    refine ⟨⟨fun _ => ?_, fun hidle => ?_, h.chain, fun last hmem => (hlast last hmem).1,
      fun _ last hmem hid => ⟨hgrown last hmem hid, ((hlast last hmem).2 hid).2⟩⟩, ?_⟩
    · show s.emit.speaking.samplesAtLastEmit + (new + samples.length) ≤ _
      rw [hlength]
      omega
    · simp at hidle
    · -- what was not due is less than the interval
      by_contra hge
      refine hdue ⟨?_, ?_⟩
      · simp only [hlength, partialMinSamples, partialEmitIntervalSamples] at *
        omega
      · rw [hlength]
        omega

end Windows

/-- **A step** that can be followed is followed. -/
theorem Following.step {s : SourceVad α} {new : ℕ} (h : Following s new) {step : VadStep α}
    (hstep : Followable s step) :
    Following (s.step step) (newAudio s new step) ∧
      ∀ samples finalised active, step = .window samples finalised active →
        newAudio s new step < partialEmitIntervalSamples := by
  cases step with
  | window samples finalised active =>
    cases active with
    | false =>
      have hzero : newAudio s new (.window samples finalised false) = 0 := by simp [newAudio]
      rw [hzero]
      exact ⟨h.silent samples finalised, fun _ _ _ _ => by decide⟩
    | true =>
      obtain ⟨hcut, hroom⟩ := hstep rfl
      cases finalised with
      | true =>
        have hzero : newAudio s new (.window samples true true) = 0 := by simp [newAudio]
        rw [hzero]
        exact ⟨h.cut samples (hcut rfl), fun _ _ _ _ => by decide⟩
      | false =>
        obtain ⟨hfollowing, hlt⟩ := h.more samples hroom
        exact ⟨hfollowing, fun _ _ _ _ => hlt⟩
  | failed => exact ⟨h, nofun⟩
  | flush tail =>
    refine ⟨⟨fun hactive => ?_, fun hidle => ?_, h.chain, h.id_le,
      fun hactive last hmem hid => ?_⟩, nofun⟩
    · have hbuffer : (s.step (.flush tail)).processor.currentUtterance16k =
          s.processor.currentUtterance16k ++ tail :=
        ContinuousVadProcessor.feed16k_of_lt tail (hstep hactive)
      have hnew : newAudio s new (.flush tail) = new + tail.length := if_pos hactive
      have hle := h.le_length hactive
      rw [hbuffer, hnew, List.length_append]
      show s.emit.samplesAtLastEmit + (new + tail.length) ≤ _
      omega
    · have hidle' : s.emit.wasActive = false := hidle
      simp [newAudio, hidle', h.new_eq hidle']
    · obtain ⟨hfront, hne⟩ := h.last_prefix hactive last hmem hid
      exact ⟨hfront.trans (ContinuousVadProcessor.prefix_feed16k _ _), hne⟩

/-- Every step of a run can be followed. -/
def AllFollowable (steps : List (VadStep α)) : Prop :=
  ∀ before step after, steps = before ++ step :: after → Followable (.run before) step

theorem allFollowable_nil : AllFollowable ([] : List (VadStep α)) := by
  intro before step after h
  simp at h

theorem AllFollowable.concat {steps : List (VadStep α)} (h : AllFollowable steps)
    (step : VadStep α) (hstep : Followable (.run steps) step) :
    AllFollowable (steps ++ [step]) := by
  intro before first after hsplit
  rcases List.eq_nil_or_concat after with rfl | ⟨rest, last, rfl⟩
  · obtain ⟨rfl, hfirst⟩ := List.append_inj' hsplit rfl
    obtain rfl := by simpa using hfirst
    exact hstep
  · have hsplit' : steps ++ [step] = (before ++ first :: rest) ++ [last] := by simp [hsplit]
    obtain ⟨rfl, -⟩ := List.append_inj' hsplit' rfl
    exact h before first rest rfl

theorem AllFollowable.of_concat {steps : List (VadStep α)} {step : VadStep α}
    (h : AllFollowable (steps ++ [step])) :
    AllFollowable steps ∧ Followable (.run steps) step := by
  refine ⟨fun before first after hsplit => ?_, h steps step [] rfl⟩
  exact h before first (after ++ [step]) (by simp [hsplit])

theorem following_watch {steps : List (VadStep α)} (h : AllFollowable steps) :
    Following (watch steps).1 (watch steps).2 := by
  induction steps using List.reverseRecOn with
  | nil => exact following_start
  | append_singleton steps step ih =>
    obtain ⟨hsteps, hstep⟩ := h.of_concat
    rw [watch_concat]
    rw [← watch_fst] at hstep
    exact ((ih hsteps).step hstep).1

/-- **Snapshots follow their utterance** in every run whose steps they can follow. -/
theorem followed_of_followable {steps : List (VadStep α)} (h : AllFollowable steps) :
    Followed steps where
  chain := by
    rw [← watch_fst]
    exact (following_watch h).chain
  prompt := by
    rintro before samples finalised active after rfl
    have hbefore : AllFollowable before := by
      rintro first step rest rfl
      exact h first step (rest ++ .window samples finalised active :: after) (by simp)
    have hwindow := h before (.window samples finalised active) after rfl
    rw [← watch_fst] at hwindow
    rw [watch_concat]
    exact ((following_watch hbefore).step hwindow).2 samples finalised active rfl

/-- A window of silence, and one of speech. -/
theorem followed_of_followable_speech :
    Followed [.window [] false false, .window (List.replicate 24000 (0 : Float32)) false true] :=
  followed_of_followable ((allFollowable_nil.concat (.window [] false false) nofun).concat
    (.window (List.replicate 24000 0) false true) fun _ => ⟨nofun, by decide⟩)

/-! ## Snapshots that do not follow -/

/-- Speech is cut, and goes on. -/
def cutRun (first second third : List α) : List (VadStep α) :=
  [.window first false true, .window [] true true, .window second false true,
    .window third false true]

/-- Nothing is sent for the audio after the cut until there is more of it than before, and what is
sent then has the number of the utterance before the cut. -/
theorem run_cutRun (first second third : List α) (hfirst : first.length = 24000)
    (hsecond : second.length = 24000) (hthird : third.length = 24000) :
    (watch ((cutRun first second third).take 3)).2 = 24000 ∧
      (SourceVad.run (cutRun first second third)).snapshots =
        [⟨1, first⟩, ⟨1, second ++ third⟩] := by
  simp [watch, cutRun, SourceVad.run, SourceVad.step, SourceVad.start, newAudio,
    ContinuousVadProcessor.processAudio, ContinuousVadProcessor.feed16k, partialEmitDecision,
    partialMinSamples, partialEmitIntervalSamples, maxPartialSamples, hfirst, hsecond, hthird]

/-- Speech begins after a silence, and goes on. -/
def silentRun (silence first second : List α) : List (VadStep α) :=
  [.window silence false false, .window first false true, .window second false true]

/-- After half a minute of silence there is no room for the utterance: the silence is sent as its
audio, and then nothing. -/
theorem run_silentRun (silence first second : List α) (hsilence : silence.length = 480000)
    (hsecond : second.length = 24000) :
    (watch (silentRun silence first second)).2 = 24000 ∧
      (SourceVad.run (silentRun silence first second)).snapshots = [⟨1, silence⟩] := by
  simp [watch, silentRun, SourceVad.run, SourceVad.step, SourceVad.start, newAudio,
    ContinuousVadProcessor.processAudio, ContinuousVadProcessor.feed16k, partialEmitDecision,
    partialMinSamples, partialEmitIntervalSamples, maxPartialSamples, hsilence, hsecond]

/-- A second and a half of a sample. -/
def constant (x : Float32) : List Float32 := List.replicate 24000 x

theorem length_constant (x : Float32) : (constant x).length = 24000 := List.length_replicate

theorem getElem?_constant (x : Float32) : (constant x)[0]? = some x := by
  rw [constant, List.getElem?_replicate, if_pos (by decide)]

/-- **Snapshots that do not follow**: of a cut in speech that goes on, the second snapshot does not
extend the first, and there were 1.5 s of new audio without one; and so there were after a long
silence. -/
theorem not_followed :
    (¬(SourceVad.run (cutRun (constant 0) (constant 1) (constant 1))).snapshots.IsChain Extends ∧
        partialEmitIntervalSamples ≤
          (watch ((cutRun (constant 0) (constant 1) (constant 1)).take 3)).2) ∧
      partialEmitIntervalSamples ≤
        (watch (silentRun (List.replicate 480000 0) (constant 1) (constant 1))).2 := by
  obtain ⟨hnew, hsnapshots⟩ := run_cutRun (constant 0) (constant 1) (constant 1)
    (length_constant 0) (length_constant 1) (length_constant 1)
  obtain ⟨hsilent, -⟩ := run_silentRun (List.replicate 480000 0) (constant 1) (constant 1)
    List.length_replicate (length_constant 1)
  refine ⟨⟨fun hchain => ?_, ?_⟩, ?_⟩
  · rw [hsnapshots] at hchain
    obtain ⟨rest, hrest⟩ := List.isChain_pair.mp hchain rfl
    -- the first samples differ
    have hhead : (constant 0 ++ rest)[0]? = (constant 1 ++ constant 1)[0]? :=
      congrArg (·[0]?) hrest
    rw [List.getElem?_append_left (by rw [length_constant]; decide), getElem?_constant,
      List.getElem?_append_left (by rw [length_constant]; decide), getElem?_constant] at hhead
    exact absurd (Option.some.inj hhead) (by decide +kernel)
  · rw [hnew]
    decide
  · rw [hsilent]
    decide

end PartialSnapshots

end MeetilyLocal
