import MeetilyLocal.Transcription.Backlog

/-!
# Segments are transcribed in order

Whatever the order is in which the pipeline, the forwarding task and the worker of a recording take their
steps, and whatever other recordings do, the worker goes through the segments in the order in which they
were sent, each of them once and as a whole; when it has ended by itself it has been through all of them
(`transcribed_of_run`).
-/

namespace MeetilyLocal

namespace Transcription

section

variable {T : Type}

/-- What holds at the ends of the two channels. -/
structure Channels (s : Session T) : Prop where
  /-- nothing is lost unless the worker is gone -/
  kept : s.worker ≠ .gone → s.lost = []
  /-- nor will it be -/
  listens : s.worker ≠ .gone → s.forwarder = .ended → s.pipelineOpen = false
  /-- nothing waits for a forwarding task that has ended -/
  emptied : s.forwarder = .ended → s.raw = []
  /-- nothing waits for a worker that is gone -/
  dropped : s.worker = .gone → s.counted = []
  /-- nothing is left for one that has finished -/
  finished : s.worker = .finished → s.pending = [] ∧ s.counted = [] ∧ s.forwarder = .ended

/-- All that was sent, in the order in which it was. -/
def Session.segments (s : Session T) : List (AudioChunk T) :=
  s.split.map Prod.fst ++ s.inHand ++ s.lost ++ s.counted ++ s.carried ++ s.raw

end

variable {T : Type} [Instant T] [LE T] [LT T] [DecidableLE T] [DecidableLT T] [OfScientific T]
  {ctx : WorkerContext} {c c' : Counters} {s s' : Session T} {events : List (WorkerEvent T)}

theorem Channels.moves (hmove : Moves ctx c s c' s' events) (h : Channels s) : Channels s' := by
  obtain ⟨kept, listens, emptied, dropped, finished⟩ := h
  cases hmove <;> constructor <;>
    simp_all [Session.dropReceiver, Session.settle, Session.receiverDropped_eq_true_iff,
      Session.receiverDropped_eq_false_iff]

/-- What was sent is what is somewhere on the way, and what was lost. -/
theorem segments_moves (hmove : Moves ctx c s c' s' events) (h : Channels s)
    (hsent : s.sent = s.segments) : s'.sent = s'.segments := by
  obtain ⟨kept, listens, emptied, dropped, finished⟩ := h
  cases hmove <;>
    simp_all [Session.segments, Session.inHand, Session.carried, Session.dropReceiver, Session.settle,
      Session.receiverDropped_eq_true_iff, Session.receiverDropped_eq_false_iff]

/-- The pieces of all segments that the worker has split. -/
def Session.pieces (s : Session T) : List (PendingChunk T) := s.split.flatMap Prod.snd

/-- The pieces that it has been through, and those that it has still to go through. -/
def Session.worked (s : Session T) : List (PendingChunk T) :=
  s.log.map Prod.fst ++ s.current ++ s.pending

/-- What the worker has been through, and what is left of the segments that it has split. -/
structure Pieces (s : Session T) : Prop where
  /-- it goes through the pieces of the segments in their order -/
  worked : s.worked <+: s.pieces
  /-- and through all of them -/
  all : s.worker ≠ .gone → s.worked = s.pieces
  /-- they are what a segment was split into -/
  split : ∀ p ∈ s.split, ∃ diarizer, splitChunkBySpeaker diarizer p.1 = some p.2

theorem Pieces.moves (hmove : Moves ctx c s c' s' events) (h : Pieces s) : Pieces s' := by
  obtain ⟨worked, all, split⟩ := h
  cases hmove
  case dropped hnumbering hdropped htrouble =>
    refine ⟨List.IsPrefix.trans ?_ worked, fun hne => absurd rfl hne, split⟩
    simp [Session.worked, Session.dropReceiver, Session.current]
  case splits chunk diarizer pieces hworker hsplit =>
    have hall := all (by simp [hworker])
    have hgrown : s.worked ++ pieces = s.pieces ++ pieces := by rw [hall]
    refine ⟨?_, fun _ => ?_, ?_⟩
    · have hprefix : s.worked ++ pieces <+: s.pieces ++ pieces := by rw [hgrown]
      simpa [Session.worked, Session.pieces, Session.current, hworker] using hprefix
    · simpa [Session.worked, Session.pieces, Session.current, hworker] using hgrown
    · simp only [List.mem_append, List.mem_singleton]
      rintro p (hp | rfl)
      · exact split p hp
      · exact ⟨diarizer, hsplit⟩
  -- nothing else changes what there is to go through
  all_goals
    constructor <;> simp_all [Session.worked, Session.pieces, Session.settle, Session.current]

/-! ## Runs -/

/-- What holds of a session at any time. -/
structure InOrder (s : Session T) : Prop where
  /-- its channels -/
  channels : Channels s
  /-- nothing appears or disappears -/
  sent : s.sent = s.segments
  /-- its pieces -/
  pieces : Pieces s

theorem InOrder.moves (hmove : Moves ctx c s c' s' events) (h : InOrder s) : InOrder s' :=
  ⟨h.channels.moves hmove, segments_moves hmove h.channels h.sent, h.pieces.moves hmove⟩

omit [LE T] [LT T] [DecidableLE T] [DecidableLT T] [OfScientific T] in
theorem inOrder_fresh : InOrder (.fresh : Session T) where
  channels := by constructor <;> simp [Session.fresh]
  sent := rfl
  pieces := ⟨List.prefix_refl _, fun _ => rfl, by simp [Session.fresh]⟩

omit [LE T] [LT T] [DecidableLE T] [DecidableLT T] [OfScientific T] in
theorem inOrder_absent : InOrder (.absent : Session T) where
  channels := by constructor <;> simp [Session.absent]
  sent := rfl
  pieces := ⟨List.prefix_refl _, fun _ => rfl, by simp [Session.absent]⟩

theorem inOrder_of_run {labels : List (Label T)} {b : Backlog T}
    (h : Backlog.initial.runAll ctx labels = some b) (k : ℕ) : InOrder (b.sessions k) :=
  Backlog.sessions_induct h inOrder_fresh (fun _ _ _ _ _ hmove h => h.moves hmove)
    (fun _ => inOrder_absent) k

/-! ## Samples -/

/-- The samples of segments. -/
def samplesOf (chunks : List (AudioChunk ℚ)) : List Float32 := chunks.flatMap AudioChunk.data

/-- The samples that the worker has been through. -/
def Session.processed (s : Session ℚ) : List Float32 :=
  s.log.flatMap fun entry => entry.1.chunk.data

/-- How far a session is. -/
structure Transcribed (s : Session ℚ) : Prop where
  /-- the worker splits the segments in the order in which they were sent -/
  inOrder : s.split.map Prod.fst <+: s.sent
  /-- their pieces are cut out of them one after the other -/
  whole : ∀ p ∈ s.split, SpeakerTurns.PiecesOf p.1 p.2
  /-- it goes through these in their order -/
  pieces : s.log.map Prod.fst <+: s.pieces
  /-- so that it has been through the first of the samples that were sent -/
  samples : s.processed <+: samplesOf s.sent
  /-- if it has ended by itself, it has been through all that was and will be sent -/
  all : s.worker = .finished → s.log.map Prod.fst = s.pieces ∧ s.split.map Prod.fst = s.sent ∧
    s.processed = samplesOf s.sent ∧ s.pipelineOpen = false

theorem samplesOf_split {split : List (AudioChunk ℚ × List (PendingChunk ℚ))}
    (h : ∀ p ∈ split, SpeakerTurns.PiecesOf p.1 p.2) :
    ((split.flatMap Prod.snd).flatMap fun piece => piece.chunk.data) =
      samplesOf (split.map Prod.fst) := by
  rw [List.flatMap_assoc, samplesOf, List.flatMap_map]
  exact List.flatMap_congr fun p hp => (h p hp).flatMap_data

theorem InOrder.transcribed {s : Session ℚ} (h : InOrder s) : Transcribed s := by
  have hwhole : ∀ p ∈ s.split, SpeakerTurns.PiecesOf p.1 p.2 := by
    intro p hp
    obtain ⟨diarizer, hsplit⟩ := h.pieces.split p hp
    obtain ⟨pieces, hpieces, hof⟩ := SpeakerTurns.exists_pieces diarizer p.1
    rw [hsplit] at hpieces
    rwa [Option.some.inj hpieces]
  have hsent : s.split.map Prod.fst <+: s.sent := by
    rw [h.sent, Session.segments]
    simp only [List.append_assoc]
    exact List.prefix_append _ _
  have hlog : s.log.map Prod.fst <+: s.worked := by
    rw [Session.worked, List.append_assoc]
    exact List.prefix_append _ _
  have hsamples : s.processed = (s.log.map Prod.fst).flatMap fun piece => piece.chunk.data := by
    rw [Session.processed, List.flatMap_map]
  have hpieces := samplesOf_split hwhole
  refine ⟨hsent, hwhole, hlog.trans h.pieces.worked, ?_, fun hfinished => ?_⟩
  · rw [hsamples]
    refine ((hlog.trans h.pieces.worked).flatMap _).trans ?_
    rw [Session.pieces, hpieces]
    exact hsent.flatMap _
  · have halive : s.worker ≠ .gone := by simp [hfinished]
    obtain ⟨hpending, hcounted, hended⟩ := h.channels.finished hfinished
    have hall : s.log.map Prod.fst = s.pieces := by
      have hworked := h.pieces.all halive
      simpa [Session.worked, Session.current, hfinished, hpending] using hworked
    have hsplit : s.split.map Prod.fst = s.sent := by
      rw [h.sent]
      simp [Session.segments, Session.inHand, Session.carried, hfinished, hended, hcounted,
        h.channels.kept halive, h.channels.emptied hended]
    refine ⟨hall, hsplit, ?_, h.channels.listens halive hended⟩
    rw [hsamples, hall, Session.pieces, hpieces, hsplit]

/-- **Segments are transcribed in order, each once and as a whole**, in every session: what the worker has
been through is the beginning of what was sent, and all of it if the worker has ended by itself. -/
theorem transcribed_of_run (ctx : WorkerContext) (labels : List (Label ℚ)) (b : Backlog ℚ)
    (h : Backlog.initial.runAll ctx labels = some b) (k : ℕ) : Transcribed (b.sessions k) :=
  (inOrder_of_run h k).transcribed

/-- Texts of ASCII, and audio that is never resampled. -/
def plainContext : WorkerContext := ⟨EchoDedup.asciiTables, fun _ _ => .error "Unsupported"⟩

/-- An engine that hears the same in everything, and no diarizer. -/
def hearsSpeech : Surroundings :=
  ⟨.ok (), none, true, fun _ => .ok ("Hello everybody.".toList, 0.9, false), "10:00:00"⟩

/-- A recording of one segment. -/
def oneSegment : List (Label ℚ) :=
  [.start, .resetSpeechDetectedFlag, .act 0 .spawn, .act 0 (.work hearsSpeech),
    .act 0 (.send ⟨[0.5, 0.25], 16000, 0, 1, .microphone⟩), .act 0 .forward, .act 0 .close,
    .act 0 .forward] ++ List.replicate 7 (.act 0 (.work hearsSpeech)) ++
  [.act 0 .forward, .act 0 (.work hearsSpeech)]

theorem transcribed_oneSegment :
    ∃ b, Backlog.initial.runAll plainContext oneSegment = some b ∧
      (b.sessions 0).receiverDropped = true ∧ Transcribed (b.sessions 0) := by
  have hrun : (Backlog.initial.runAll plainContext oneSegment).map
      (fun b => (b.sessions 0).receiverDropped) = some true := by decide +kernel
  obtain ⟨b, hb, hdropped⟩ := Option.map_eq_some_iff.mp hrun
  exact ⟨b, hb, hdropped, transcribed_of_run plainContext oneSegment b hb 0⟩

end Transcription

end MeetilyLocal
