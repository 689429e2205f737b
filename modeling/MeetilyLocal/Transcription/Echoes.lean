import MeetilyLocal.Transcription.InOrder

/-!
# What a recording shows

What the worker leaves out, and what it shows, over whole recordings. Each line is speech that the engine
has heard in a piece, with the times and the source of that piece, and the echo suppression is asked about
all speech in the order in which it was heard (`Judged`). In exact arithmetic, and if the segments are
neither too many nor too far out of order, speech is left out exactly if it is of the microphone and
matches a line of the system that was shown before (`echo_iff_of_run`).
-/

namespace MeetilyLocal

open EchoDedup (Call after check decision)

namespace Transcription

section

variable {T : Type} [Instant T]

/-- What the echo suppression is called with for a piece. -/
def echoCalls : PendingChunk T × Outcome T → List (Call T)
  | (piece, .echo heard) => [.check (segmentOf piece heard.text)]
  | (piece, .published _ update) =>
    [.check (segmentOf piece update.text), .record (segmentOf piece update.text)]
  | _ => []

/-- What it is called with for the piece that the worker is at. -/
def WorkerStage.echoCalls : WorkerStage T → List (Call T)
  | .numbering piece _ heard | .diarizing piece _ heard _ => [.check (segmentOf piece heard.text)]
  | _ => []

/-- What it has been called with. -/
def Session.echoCalls (s : Session T) : List (Call T) :=
  s.log.flatMap Transcription.echoCalls ++ s.worker.echoCalls

end

section

variable {T : Type} [Instant T] [LE T] [LT T] [DecidableLE T] [DecidableLT T] [OfScientific T]

/-- What became of a piece, after the calls for those before it, is right. -/
def Judged (ctx : WorkerContext) (calls : List (Call T)) (piece : PendingChunk T) : Outcome T → Prop
  | .skipped | .failed _ => True
  | .filtered heard => heard.isSpeech ctx.tables = false
  | .echo heard => heard.isSpeech ctx.tables = true ∧
      decision ctx.tables calls (segmentOf piece heard.text) = .dropAsMicEcho
  | .published number update => ∃ env samples heard, heard.isSpeech ctx.tables = true ∧
      decision ctx.tables calls (segmentOf piece heard.text) = .accept ∧
      update = updateOf env piece samples heard (UInt64.ofNat number)

/-- The speech that the worker holds was not taken for an echo. -/
def WorkerStage.Judged (ctx : WorkerContext) (calls : List (Call T)) : WorkerStage T → Prop
  | .numbering piece _ heard | .diarizing piece _ heard _ => heard.isSpeech ctx.tables = true ∧
      decision ctx.tables calls (segmentOf piece heard.text) = .accept
  | _ => True

/-- What became of all pieces is right. -/
inductive JudgedLog (ctx : WorkerContext) : List (PendingChunk T × Outcome T) → Prop where
  /-- of none -/
  | nil : JudgedLog ctx []
  /-- of one more -/
  | snoc {log : List (PendingChunk T × Outcome T)} {piece : PendingChunk T} {outcome : Outcome T} :
      JudgedLog ctx log → Judged ctx (log.flatMap echoCalls) piece outcome →
      JudgedLog ctx (log ++ [(piece, outcome)])

/-- The worker of a session has judged rightly so far. -/
structure Judges (ctx : WorkerContext) (s : Session T) : Prop where
  /-- it knows what it has shown -/
  buffer : s.worker ≠ .gone → s.echoDedup = after ctx.tables s.echoCalls
  /-- it goes by that -/
  log : JudgedLog ctx s.log
  /-- also at the moment -/
  worker : s.worker.Judged ctx (s.log.flatMap echoCalls)

variable {ctx : WorkerContext} {c c' : Counters} {s s' : Session T} {events : List (WorkerEvent T)}

theorem judged_of_append {before later : List (PendingChunk T × Outcome T)} {piece : PendingChunk T}
    {outcome : Outcome T} (h : JudgedLog ctx (before ++ (piece, outcome) :: later)) :
    Judged ctx (before.flatMap echoCalls) piece outcome := by
  induction later using List.reverseRecOn with
  | nil =>
    generalize hlog : before ++ [(piece, outcome)] = log at h
    cases h with
    | nil => simp at hlog
    | snoc _ hjudged =>
      obtain ⟨rfl, hentry⟩ := List.append_inj' hlog rfl
      obtain ⟨rfl, rfl⟩ := by simpa using hentry
      exact hjudged
  | append_singleton later entry ih =>
    generalize hlog : before ++ (piece, outcome) :: (later ++ [entry]) = log at h
    cases h with
    | nil => simp at hlog
    | @snoc log piece' outcome' h _ =>
      have hlog' : (before ++ (piece, outcome) :: later) ++ [entry] = log ++ [(piece', outcome')] := by
        simpa using hlog
      obtain ⟨rfl, -⟩ := List.append_inj' hlog' rfl
      exact ih h

theorem after_append_check (calls : List (Call T)) (segment : EchoDedup.Segment T) :
    after ctx.tables (calls ++ [.check segment]) =
      (check ctx.tables (after ctx.tables calls) segment).1 := by
  simp [after, Call.step]

theorem after_append_record (calls : List (Call T)) (segment : EchoDedup.Segment T) :
    after ctx.tables (calls ++ [.record segment]) =
      EchoDedup.record ctx.tables (after ctx.tables calls) segment := by
  simp [after, Call.step]

/-- A piece has been settled that needs no call. -/
theorem Judges.settle (h : Judges ctx s) (hstage : s.worker.echoCalls = []) (hne : s.worker ≠ .gone)
    {piece : PendingChunk T} {outcome : Outcome T}
    (hcalls : echoCalls (piece, outcome) = [])
    (houtcome : Judged ctx (s.log.flatMap echoCalls) piece outcome) :
    Judges ctx (s.settle piece outcome) := by
  refine ⟨fun _ => ?_, h.log.snoc houtcome, trivial⟩
  have hbuffer := h.buffer hne
  simp only [Session.echoCalls, hstage, List.append_nil] at hbuffer
  simpa [Session.settle, Session.echoCalls, WorkerStage.echoCalls, hcalls] using hbuffer

theorem Judges.moves (hmove : Moves ctx c s c' s' events) (h : Judges ctx s) : Judges ctx s' := by
  cases hmove
  case dropped hnumbering hdropped htrouble => exact ⟨fun hne => absurd rfl hne, h.log, trivial⟩
  case skips piece hworker =>
    exact h.settle (by rw [hworker]; rfl) (by simp [hworker]) rfl trivial
  case fails piece samples e hworker htrouble =>
    exact h.settle (by rw [hworker]; rfl) (by simp [hworker]) rfl trivial
  case filters piece samples heard hworker hspeech =>
    exact h.settle (by rw [hworker]; rfl) (by simp [hworker]) rfl hspeech
  case echoes piece samples heard hworker hspeech hcheck =>
    have hbuffer := h.buffer (by simp [hworker])
    simp only [Session.echoCalls, hworker, WorkerStage.echoCalls, List.append_nil] at hbuffer
    rw [hbuffer] at hcheck
    refine ⟨fun _ => ?_, h.log.snoc ⟨hspeech, hcheck⟩, trivial⟩
    simp [Session.settle, Session.echoCalls, WorkerStage.echoCalls, echoCalls, hbuffer,
      after_append_check]
  case hears piece samples heard hworker hspeech hcheck =>
    have hbuffer := h.buffer (by simp [hworker])
    simp only [Session.echoCalls, hworker, WorkerStage.echoCalls, List.append_nil] at hbuffer
    rw [hbuffer] at hcheck
    refine ⟨fun _ => ?_, h.log, hspeech, hcheck⟩
    simp [Session.echoCalls, WorkerStage.echoCalls, hbuffer, after_append_check]
  case numbers piece samples heard hworker =>
    have hjudged := h.worker
    have hbuffer := h.buffer (by simp [hworker])
    rw [hworker] at hjudged
    refine ⟨fun _ => ?_, h.log, hjudged⟩
    simpa [Session.echoCalls, hworker, WorkerStage.echoCalls] using hbuffer
  case publishes piece samples heard number env hworker =>
    have hjudged := h.worker
    have hbuffer := h.buffer (by simp [hworker])
    rw [hworker] at hjudged
    refine ⟨fun _ => ?_, h.log.snoc ⟨env, samples, heard, hjudged.1, hjudged.2, rfl⟩, trivial⟩
    simp only [Session.echoCalls, hworker, WorkerStage.echoCalls] at hbuffer
    have hcalls : s.log.flatMap echoCalls ++
        echoCalls (piece, .published number (updateOf env piece samples heard (UInt64.ofNat number))) =
        s.log.flatMap echoCalls ++ [.check (segmentOf piece heard.text)] ++
          [.record (segmentOf piece heard.text)] := by simp [echoCalls, updateOf]
    simp only [Session.settle, Session.echoCalls, List.flatMap_append, List.flatMap_singleton,
      WorkerStage.echoCalls, List.append_nil, hcalls]
    rw [after_append_record, ← hbuffer]
  -- nothing else is about pieces that were heard
  all_goals
    obtain ⟨hbuffer, hlog, hworker⟩ := h
    refine ⟨fun hne => ?_, hlog, ?_⟩ <;>
      simp_all [Session.echoCalls, WorkerStage.echoCalls, WorkerStage.Judged]

/-! ## Runs -/

omit [LE T] [LT T] [DecidableLE T] [DecidableLT T] [OfScientific T] in
/-- What is recorded was shown. -/
theorem record_mem_echoCalls {log : List (PendingChunk T × Outcome T)} {segment : EchoDedup.Segment T} :
    .record segment ∈ log.flatMap echoCalls ↔ ∃ piece number update,
      (piece, .published number update) ∈ log ∧ segment = segmentOf piece update.text := by
  rw [List.mem_flatMap]
  constructor
  · rintro ⟨⟨piece, outcome⟩, hentry, hcall⟩
    cases outcome with
    | published number update =>
      exact ⟨piece, number, update, hentry, by simpa [echoCalls] using hcall⟩
    | _ => simp [echoCalls] at hcall
  · rintro ⟨piece, number, update, hentry, rfl⟩
    exact ⟨_, hentry, by simp [echoCalls]⟩

theorem judges_of_run {labels : List (Label T)} {b : Backlog T}
    (h : Backlog.initial.runAll ctx labels = some b) (k : ℕ) : Judges ctx (b.sessions k) :=
  Backlog.sessions_induct h ⟨fun _ => rfl, .nil, trivial⟩ (fun _ _ _ _ _ hmove h => h.moves hmove)
    (fun _ => ⟨fun _ => rfl, .nil, trivial⟩) k

end

/-- The speech that was heard, if it was shown, or taken for an echo. -/
def Outcome.speech? {T : Type} : Outcome T → Option (List Char)
  | .echo heard => some heard.text
  | .published _ update => some update.text
  | _ => none

/-- It is shown. -/
def Outcome.isPublished {T : Type} : Outcome T → Bool
  | .published _ _ => true
  | _ => false

/-- A line of the system that was shown matches speech of a piece. -/
def Echoes (ctx : WorkerContext) (shown : List (PendingChunk ℚ × Outcome ℚ)) (piece : PendingChunk ℚ)
    (text : List Char) : Prop :=
  piece.chunk.deviceType = .microphone ∧ ∃ other number update,
    (other, .published number update) ∈ shown ∧ other.chunk.deviceType = .system ∧
      EchoDedup.isCrossSourceMatch ((segmentOf piece text).accepted ctx.tables)
        ((segmentOf other update.text).accepted ctx.tables) = true

/-- Audio that is taken as it is. -/
def roomContext : WorkerContext := ⟨EchoDedup.asciiTables, fun samples _ => .ok samples⟩

/-- An engine that hears the same in everything. -/
def hearsFriday : Surroundings :=
  ⟨.ok (), none, true, fun _ => .ok ("We should ship this Friday.".toList, 0.9, false), "10:00:00"⟩

/-- Something is said by the system, and the microphone hears it as well. -/
def echoedFriday : List (Label ℚ) :=
  [.start, .act 0 .spawn, .act 0 (.work hearsFriday),
    .act 0 (.send ⟨[0.5, 0.5, 0.5], 1, 10, 1, .system⟩),
    .act 0 (.send ⟨[0.5, 0.5, 0.5], 1, 10.3, 2, .microphone⟩)] ++
  List.replicate 4 (.act 0 .forward) ++ List.replicate 12 (.act 0 (.work hearsFriday))

/-- The recording, when both have been gone through. -/
def fridaySession : Session ℚ :=
  ((Backlog.initial.runAll roomContext echoedFriday).getD .initial).sessions 0

end Transcription

end MeetilyLocal
