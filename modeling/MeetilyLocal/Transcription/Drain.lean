import MeetilyLocal.Transcription.InOrder

/-!
# Draining the backlog

When the pipeline of a recording has dropped its sender, only so many steps are left to the forwarding task
and the worker, whatever order they are taken in and whatever other recordings do in between; and as long
as the worker has not ended, one of the two can take a step (`drain_of_run`). So waiting for the worker
comes to an end if the engine and the diarizer answer.
-/

namespace MeetilyLocal

namespace Transcription

/-! ## How many pieces there are -/

/-- How many pieces a segment may have. -/
def mostPieces {T : Type} (chunk : AudioChunk T) : ℕ := max 1 chunk.data.length

section

variable {T : Type} [Instant T]

/-- A piece has a sample, if there is more than one. -/
theorem length_split_le {diarizer : Option Diarizer} {chunk : AudioChunk T}
    {pieces : List (PendingChunk T)} (h : splitChunkBySpeaker diarizer chunk = some pieces) :
    pieces.length ≤ mostPieces chunk := by
  unfold splitChunkBySpeaker at h
  split at h
  · obtain rfl := Option.some.inj h
    exact le_max_left _ _
  split at h
  · obtain rfl := Option.some.inj h
    exact le_max_left _ _
  next diarizer turns hturns =>
    split at h
    · obtain rfl := Option.some.inj h
      exact le_max_left _ _
    next hmany =>
      obtain hfew | htiles := SpeakerTurns.tiles_of_speakerTurns hturns
      · exact absurd hfew hmany
      · have hle := htiles.contiguous.add_length_le htiles.lt
        rw [List.length_map, Nat.zero_add] at hle
        rw [Cuts.length_of_mapM h]
        exact hle.trans (le_max_right _ _)

end

/-! ## What is left to do -/

section

variable {T : Type}

/-- The steps of the worker for a segment. -/
def effort (chunk : AudioChunk T) : ℕ := 2 + 5 * mostPieces chunk

/-- The steps of the worker for what it is at, and its end. -/
def WorkerStage.left : WorkerStage T → ℕ
  | .unborn => 3
  | .starting => 2
  | .idle => 1
  | .splitting chunk => effort chunk
  | .looking _ => 5
  | .transcribing _ _ => 4
  | .numbering _ _ _ => 3
  | .diarizing _ _ _ _ => 2
  | .finished | .gone => 0

/-- The steps of the forwarding task for what it carries, and its end. -/
def ForwarderStage.left : ForwarderStage T → ℕ
  | .receiving => 1
  | .carrying chunk => effort chunk + 2
  | .ended => 0

/-- The steps that are left to a session. -/
def Session.left (s : Session T) : ℕ :=
  s.worker.left + 5 * s.pending.length + (s.counted.map effort).sum + s.forwarder.left +
    (s.raw.map fun chunk => effort chunk + 2).sum

end

variable {T : Type} [Instant T] [LE T] [LT T] [DecidableLE T] [DecidableLT T] [OfScientific T]
  {ctx : WorkerContext} {c c' : Counters} {s s' : Session T} {events : List (WorkerEvent T)}
  {b b' : Backlog T} {label : Label T} {labels : List (Label T)}

/-- **There is less left to do after each step**, once the pipeline has dropped its sender. -/
theorem left_moves (hmove : Moves ctx c s c' s' events) (hclosed : s.pipelineOpen = false) :
    s'.pipelineOpen = false ∧ s'.left < s.left := by
  cases hmove
  case dropped hnumbering hdropped htrouble =>
    obtain ⟨hfinished, hgone⟩ := Session.receiverDropped_eq_false_iff.mp hdropped
    have hstage : 0 < s.worker.left := by
      cases hworker : s.worker <;> simp_all [WorkerStage.left, effort]
    have hnothing : (WorkerStage.gone : WorkerStage T).left = 0 := rfl
    refine ⟨hclosed, ?_⟩
    simp only [Session.left, Session.dropReceiver, hnothing, List.length_nil, List.map_nil, List.sum_nil]
    omega
  case splits chunk diarizer pieces hworker hsplit =>
    have hlength := length_split_le hsplit
    refine ⟨hclosed, ?_⟩
    simp only [Session.left, hworker, WorkerStage.left, effort, List.length_append]
    omega
  case undeliverable chunk hforwarder hdropped =>
    refine ⟨hclosed, ?_⟩
    simp only [Session.left, hforwarder, ForwarderStage.left, effort, List.map_nil, List.sum_nil]
    omega
  all_goals
    simp_all [Session.left, WorkerStage.left, ForwarderStage.left, Session.settle] <;> omega

/-! ## Runs -/

/-- It is something that happens in a session. -/
def Label.isIn {T : Type} (k : ℕ) : Label T → Bool
  | .act j _ => j = k
  | _ => false

theorem left_next {k : ℕ} (hnext : b.next ctx label = some b') (hk : k < b.started)
    (hclosed : (b.sessions k).pipelineOpen = false) :
    k < b'.started ∧ (b'.sessions k).pipelineOpen = false ∧
      (b'.sessions k).left + (if label.isIn k then 1 else 0) ≤ (b.sessions k).left := by
  obtain ⟨rfl, rfl⟩ | ⟨rfl, rfl⟩ | ⟨j, action, c, s, events, rfl, hmove, rfl⟩ := Backlog.next_cases hnext
  · simp only [Function.update_of_ne hk.ne]
    exact ⟨Nat.lt_succ_of_lt hk, hclosed, le_rfl⟩
  · exact ⟨hk, hclosed, le_rfl⟩
  · obtain rfl | hne := eq_or_ne j k
    · obtain ⟨hclosed', hlt⟩ := left_moves hmove hclosed
      simp only [Function.update_self, Label.isIn, decide_true, if_true]
      exact ⟨hk, hclosed', hlt⟩
    · simp only [Function.update_of_ne hne.symm, Label.isIn, hne, decide_false]
      exact ⟨hk, hclosed, le_rfl⟩

/-- No more happens in a session than is left to it. -/
theorem count_le_left {k : ℕ} (h : b.runAll ctx labels = some b') (hk : k < b.started)
    (hclosed : (b.sessions k).pipelineOpen = false) :
    (b'.sessions k).pipelineOpen = false ∧
      labels.countP (Label.isIn k) + (b'.sessions k).left ≤ (b.sessions k).left := by
  induction labels generalizing b with
  | nil =>
    obtain rfl := Option.some.inj h
    exact ⟨hclosed, by simp⟩
  | cons label labels ih =>
    obtain ⟨b₁, hnext, hrun⟩ := Option.bind_eq_some_iff.mp h
    obtain ⟨hk₁, hclosed₁, hleft₁⟩ := left_next hnext hk hclosed
    obtain ⟨hclosed', hle⟩ := ih hrun hk₁ hclosed₁
    refine ⟨hclosed', ?_⟩
    rw [List.countP_cons]
    omega

/-- Neither task can take a step, whatever the engine and the diarizer say. -/
def Stuck (ctx : WorkerContext) (c : Counters) (s : Session T) : Prop :=
  ∀ env, act ctx c s .forward = none ∧ act ctx c s (.work env) = none

/-- **Nobody waits for nothing**: only a worker that has ended, or was never started, is stuck. -/
theorem over_of_stuck (hclosed : s.pipelineOpen = false) (h : Stuck ctx c s) :
    s.receiverDropped = true ∨ s.worker = .unborn := by
  obtain ⟨hforward, hwork⟩ := h ⟨.ok (), none, true, fun _ => .error "", ""⟩
  simp only [act, Option.map_eq_none_iff] at hforward hwork
  cases hworker : s.worker with
  | unborn => exact .inr rfl
  | finished => exact .inl (Session.receiverDropped_eq_true_iff.mpr (.inl hworker))
  | gone => exact .inl (Session.receiverDropped_eq_true_iff.mpr (.inr hworker))
  | idle =>
    -- it waits for a segment, so that the forwarding task has not ended
    have hidle : s.takeNext c = none := by simpa [Session.work, hworker] using hwork
    cases hpending : s.pending <;> cases hcounted : s.counted <;> cases hforwarder : s.forwarder <;>
      cases hraw : s.raw <;>
      simp [Session.takeNext, Session.forward, Session.receiverDropped, hpending, hcounted, hforwarder, hraw,
        hworker, hclosed] at hidle hforward
  | _ => simp [Session.work, hworker, splitChunkBySpeaker] at hwork

/-- **The backlog is drained**: once the pipeline of a recording has dropped its sender, no more steps are
left to it than its segments need, and when none is possible any more, the worker has ended. -/
theorem drain_of_run (ctx : WorkerContext) (labels : List (Label T)) (b b' : Backlog T)
    (h : b.runAll ctx labels = some b') (k : ℕ) (hk : k < b.started)
    (hclosed : (b.sessions k).pipelineOpen = false) :
    labels.countP (Label.isIn k) ≤ (b.sessions k).left ∧
      (Stuck ctx b'.counters (b'.sessions k) →
        (b'.sessions k).receiverDropped = true ∨ (b'.sessions k).worker = .unborn) := by
  obtain ⟨hclosed', hle⟩ := count_le_left h hk hclosed
  exact ⟨(Nat.le_add_right _ _).trans hle, over_of_stuck hclosed'⟩

/-- The recording of one segment is drained from the moment on that the pipeline has dropped its sender. -/
theorem drain_of_run_oneSegment :
    ∃ b b', Backlog.initial.runAll plainContext (oneSegment.take 7) = some b ∧
      b.runAll plainContext (oneSegment.drop 7) = some b' ∧
      (oneSegment.drop 7).countP (Label.isIn 0) ≤ (b.sessions 0).left := by
  have hrun : (Backlog.initial.runAll plainContext (oneSegment.take 7)).bind (fun b =>
      (b.runAll plainContext (oneSegment.drop 7)).map fun _ => (b.started, (b.sessions 0).pipelineOpen)) =
      some (1, false) := by decide +kernel
  obtain ⟨b, hb, hmap⟩ := Option.bind_eq_some_iff.mp hrun
  obtain ⟨b', hb', hpair⟩ := Option.map_eq_some_iff.mp hmap
  obtain ⟨hstarted, hclosed⟩ := Prod.mk.inj hpair
  exact ⟨b, b', hb, hb',
    (drain_of_run plainContext (oneSegment.drop 7) b b' hb' 0 (by omega) hclosed).1⟩

end Transcription

end MeetilyLocal
