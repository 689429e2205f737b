import MeetilyLocal.Library.Tasks
import MeetilyLocal.Recording.RecordingPhase
import MeetilyLocal.Recording.RecordingState

/-!
# The recording service

The embedding of `audio/recording_service.rs`: the flows that start, stop, pause and resume a
recording, the reports of audio errors, which may stop it (`RecordingState::report_error` and
`spawn_fatal_error_stop`), and the transcription worker with the bus that its segments go through
(`audio/transcript_bus.rs`). They are tasks over one shared state, the statics of the program and
the managers behind them.

One step of a task is what it does under one lock or on one atomic, or on values of its own; other
tasks run between any two steps. What the outside decides at a step, whether an operation
succeeds, stands in `Env`. Steps that touch nothing shared are left out: loading preferences,
looking for devices and ffmpeg, progress events, the preview of partial transcripts.
-/

namespace MeetilyLocal

/-- The number of a recording session: it stands for its manager and for its meeting id. -/
abbrev SessionId : Type := ℕ

/-- A transcript segment as the worker publishes it. -/
structure Segment : Type where
  /-- the session whose worker published it -/
  session : SessionId
  /-- its sequence number in that session -/
  sequence : ℕ
  deriving DecidableEq

/-- Where the transcription worker of a session is. -/
inductive WorkerStatus : Type where
  /-- it was not started -/
  | notStarted : WorkerStatus
  /-- it runs -/
  | running : WorkerStatus
  /-- it was told to abort, which it does when it next waits -/
  | aborted : WorkerStatus
  /-- it has finished -/
  | done : WorkerStatus
  deriving DecidableEq

/-- The status of a row of the meetings table. -/
inductive RowStatus : Type where
  /-- the meeting is being recorded -/
  | recording : RowStatus
  /-- it was stopped by the user -/
  | completed : RowStatus
  /-- it was stopped by a fatal error -/
  | interrupted : RowStatus
  deriving DecidableEq

/-- A recording manager and what belongs to its session. -/
structure Session : Type where
  /-- the recording state -/
  state : RecordingState
  /-- capture streams are open, and may report errors -/
  streamsOpen : Bool
  /-- the number of reports that are under way -/
  reporters : ℕ
  /-- the mutex of the error callback is held by a callback that runs -/
  callbackLocked : Bool
  /-- the segments added to the manager -/
  segments : List Segment
  /-- the segments that the worker published -/
  published : List Segment
  /-- the transcription worker -/
  worker : WorkerStatus
  /-- the row of the meeting -/
  row : Option RowStatus
  /-- the context of the session has a database -/
  pool : Bool

/-- `RecordingManager::new`, with the error callback set -/
def Session.new (pool : Bool) : Session :=
  ⟨RecordingState.new.setErrorCallback, false, 0, false, [], [], .notStarted, none, pool⟩

/-- What the tasks share. -/
structure Service : Type where
  /-- `START_IN_PROGRESS` -/
  startInProgress : Bool
  /-- `STOP_IN_PROGRESS` -/
  stopInProgress : Bool
  /-- `RECORDING_MANAGER` -/
  manager : Option SessionId
  /-- `TRANSCRIPTION_TASK` -/
  transcriptionTask : Option SessionId
  /-- `SUBSCRIBER`, by the session that its closure belongs to -/
  subscriber : Option SessionId
  /-- `PENDING_SEGMENT_BUFFER` -/
  pending : List Segment
  /-- `TRANSCRIPT_DB_WRITER` -/
  dbWriter : Option SessionId
  /-- what was given to database writers, and under which meeting id -/
  enqueued : List (SessionId × Segment)
  /-- the speaker diarizer -/
  diarizer : Option SessionId
  /-- `PHASE_STATE` and `SEQ` -/
  phase : PhaseState SessionId
  /-- the managers and their sessions -/
  sessions : SessionId → Session
  /-- the next session's number -/
  nextSession : SessionId

namespace Service

/-- The statics at program start. -/
def initial : Service where
  startInProgress := false
  stopInProgress := false
  manager := none
  transcriptionTask := none
  subscriber := none
  pending := []
  dbWriter := none
  enqueued := []
  diarizer := none
  phase := .initial
  sessions _ := .new false
  nextSession := 0

/-- Change one session. -/
def update (s : Service) (m : SessionId) (f : Session → Session) : Service :=
  { s with sessions := Function.update s.sessions m (f (s.sessions m)) }

/-- `is_recording` -/
def isRecording (s : Service) : Bool :=
  match s.manager with
  | some m => (s.sessions m).state.isRecording
  | none => false

/-- `emit_phase` -/
def emitPhase (s : Service) (now : ℕ) (phase : RecordingPhase) : Service :=
  { s with phase := s.phase.apply now phase }

/-- Drop a manager: its state is cleaned up and its streams are stopped. -/
def dropManager (s : Service) (m : SessionId) : Service :=
  s.update m fun session => { session with state := session.state.cleanup, streamsOpen := false }

/-- `*RECORDING_MANAGER.lock() = Some(manager)`, which drops what was there. -/
def storeManager (s : Service) (m : SessionId) : Service :=
  match s.manager with
  | some old => { s.dropManager old with manager := some m }
  | none => { s with manager := some m }

/-- The callback of the session is running, so that dropping its manager has to wait. -/
def callbackLocked (s : Service) : Option SessionId → Bool
  | some m => (s.sessions m).callbackLocked
  | none => false

end Service

/-- What the outside decides at a step. -/
structure Env : Type where
  /-- what is tried succeeds -/
  ok : Bool
  /-- what is looked for exists -/
  found : Bool
  /-- Unix time in milliseconds -/
  now : ℕ

/-- Where a start is. -/
inductive StartPc : Type where
  /-- `PhaseGuard::try_acquire(&START_IN_PROGRESS)` -/
  | tryStart : StartPc
  /-- `is_stop_in_progress()` in `begin_start_phase` -/
  | loadStop : StartPc
  /-- `is_recording().await` in `begin_start_phase` -/
  | checkRecording : StartPc
  /-- `emit_phase(Starting)` -/
  | emitStarting : StartPc
  /-- validating the model -/
  | validate : StartPc
  /-- creating the manager -/
  | create : StartPc
  /-- `RecordingState::start_recording` -/
  | beginRecording : SessionId → StartPc
  /-- starting the pipeline -/
  | startPipeline : SessionId → StartPc
  /-- starting the streams -/
  | startStreams : SessionId → StartPc
  /-- `abort_failed_start` -/
  | abortStart : SessionId → StartPc
  /-- `set_meeting_info` -/
  | setMeetingInfo : SessionId → StartPc
  /-- creating the row of the meeting -/
  | createRow : SessionId → StartPc
  /-- starting the database writer -/
  | startWriter : SessionId → StartPc
  /-- storing the manager -/
  | store : SessionId → StartPc
  /-- setting up the diarizer -/
  | initDiarizer : SessionId → StartPc
  /-- `start_transcription_task` -/
  | spawnWorker : SessionId → StartPc
  /-- storing the handle of the worker -/
  | storeTask : SessionId → StartPc
  /-- `subscribe_transcript_persistence` -/
  | subscribe : SessionId → StartPc
  /-- emitting `recording-started` -/
  | emitStarted : StartPc
  /-- `emit_phase(Recording)` -/
  | emitRecording : StartPc
  /-- `emit_phase(Idle)` of a start that failed, with the manager it had created -/
  | emitIdle : Option SessionId → StartPc
  /-- dropping the manager of a start that failed -/
  | dropManager : SessionId → StartPc
  /-- dropping the guard -/
  | release : StartPc
  deriving DecidableEq

/-- Where a stop is. -/
inductive StopPc : Type where
  /-- looking for a manager -/
  | checkManager : StopPc
  /-- `is_stop_in_progress()` -/
  | loadStop : StopPc
  /-- `PhaseGuard::try_acquire(&STOP_IN_PROGRESS)` -/
  | tryStop : StopPc
  /-- `was_fatal_error` -/
  | readPhase : StopPc
  /-- `meeting_id_for_stop` -/
  | readMeeting : StopPc
  /-- `emit_phase(Stopping)` -/
  | emitStopping : StopPc
  /-- taking the manager out -/
  | take : StopPc
  /-- `stop_recording` in `stop_streams_and_force_flush` -/
  | stopRecording : SessionId → StopPc
  /-- stopping the streams and flushing the pipeline -/
  | stopStreams : SessionId → StopPc
  /-- `cleanup` in `stop_streams_and_force_flush` -/
  | cleanup : SessionId → StopPc
  /-- `replay_buffered_segments` -/
  | replay : SessionId → StopPc
  /-- putting the manager back -/
  | putBack : SessionId → StopPc
  /-- `emit_phase(Finalising)` -/
  | emitFinalising : StopPc
  /-- taking the handle of the worker -/
  | takeTask : StopPc
  /-- waiting for the worker -/
  | drain : SessionId → StopPc
  /-- `unsubscribe` -/
  | unsubscribe : StopPc
  /-- shutting the database writer down -/
  | takeWriter : StopPc
  /-- taking the manager out for the final save -/
  | finalTake : StopPc
  /-- saving the recording, if there is a manager, and dropping the manager -/
  | save : Option SessionId → StopPc
  /-- finalising the row of the meeting -/
  | finaliseRow : StopPc
  /-- emitting `recording-stopped` -/
  | emitStopped : StopPc
  /-- `emit_phase(Idle)` -/
  | emitIdle : StopPc
  /-- dropping the guard -/
  | release : StopPc
  deriving DecidableEq

/-- The local variables of a stop. -/
structure StopCall : Type where
  /-- its context has a database -/
  pool : Bool
  /-- `was_fatal_error` -/
  wasFatalError : Bool
  /-- `meeting_id_for_stop` -/
  meetingId : Option SessionId

/-- Where a pause or a resume is. -/
inductive TogglePc : Type where
  /-- `is_recording().await` -/
  | checkRecording : TogglePc
  /-- `pause_recording` or `resume_recording` of the manager -/
  | toggle : TogglePc
  /-- emitting `recording-paused` or `recording-resumed` -/
  | emitEvent : TogglePc
  /-- `emit_phase(Paused)` or `emit_phase(Recording)` -/
  | emitPhase : TogglePc
  deriving DecidableEq

/-- Where a report of an error is. -/
inductive ReportPc : Type where
  /-- counting the error -/
  | count : ReportPc
  /-- counting it as recoverable; the error count -/
  | countRecoverable : ℕ → ReportPc
  /-- `errored.swap(true)` of a fatal error -/
  | swap : ReportPc
  /-- locking the callback -/
  | lockCallback : ReportPc
  /-- `set_error_message` -/
  | setMessage : ReportPc
  /-- `emit_phase(Error)` -/
  | emitError : ReportPc
  /-- spawning the stop -/
  | spawnStop : ReportPc
  deriving DecidableEq

/-- Where a transcription worker is. -/
inductive WorkerPc : Type where
  /-- between two segments -/
  | idle : WorkerPc
  /-- in the subscriber, before it locks the database writer; the closure's meeting id -/
  | enqueue : SessionId → Segment → WorkerPc
  /-- in the subscriber, before it locks the manager -/
  | deliver : Segment → WorkerPc
  deriving DecidableEq

/-- A task of the service. -/
inductive ServiceTask : Type where
  /-- a task that does not exist -/
  | free : ServiceTask
  /-- `start`; its context has a database or not -/
  | start : Bool → StartPc → ServiceTask
  /-- `stop` -/
  | stop : StopCall → StopPc → ServiceTask
  /-- `pause_recording`, or `resume_recording` if the flag is set -/
  | toggle : Bool → TogglePc → ServiceTask
  /-- `report_error` of a session -/
  | report : SessionId → AudioError → ReportPc → ServiceTask
  /-- the transcription worker of a session -/
  | worker : SessionId → WorkerPc → ServiceTask
  /-- a task that has returned -/
  | finished : ServiceTask

/-- The calls from outside. -/
inductive ServiceCall : Type where
  /-- start a recording -/
  | start : Bool → ServiceCall
  /-- stop it -/
  | stop : Bool → ServiceCall
  /-- pause it -/
  | pause : ServiceCall
  /-- resume it -/
  | resume : ServiceCall
  /-- a stream of a session reports an error -/
  | report : SessionId → AudioError → ServiceCall

namespace RecordingService

/-- A step to another point. -/
def goTo (s : Service) (task : ServiceTask) : Option (Tasks.Move Service ServiceTask) :=
  some ⟨s, task, none⟩

/-- A step that waits until something holds. -/
def waitFor (ready : Bool) (move : Option (Tasks.Move Service ServiceTask)) :
    Option (Tasks.Move Service ServiceTask) :=
  if ready then move else none

/-- `start` -/
def startStep (pool : Bool) (env : Env) (s : Service) :
    StartPc → Option (Tasks.Move Service ServiceTask)
  | .tryStart =>
    if s.startInProgress then goTo s .finished
    else goTo { s with startInProgress := true } (.start pool .loadStop)
  | .loadStop => goTo s (.start pool (if s.stopInProgress then .release else .checkRecording))
  | .checkRecording => goTo s (.start pool (if s.isRecording then .release else .emitStarting))
  | .emitStarting => goTo (s.emitPhase env.now .starting) (.start pool .validate)
  | .validate => goTo s (.start pool (if env.ok then .create else .emitIdle none))
  | .create =>
    goTo { s.update s.nextSession fun _ => .new pool with nextSession := s.nextSession + 1 }
      (.start pool (.beginRecording s.nextSession))
  | .beginRecording m =>
    goTo (s.update m fun session => { session with state := session.state.startRecording })
      (.start pool (.startPipeline m))
  | .startPipeline m =>
    if env.ok then
      goTo (s.update m fun session => { session with streamsOpen := true })
        (.start pool (.startStreams m))
    else goTo s (.start pool (.abortStart m))
  | .startStreams m => goTo s (.start pool (if env.ok then .setMeetingInfo m else .abortStart m))
  | .abortStart m =>
    goTo (s.update m fun session => { session with state := session.state.stopRecording })
      (.start pool (.emitIdle (some m)))
  | .setMeetingInfo m =>
    goTo { s with phase := s.phase.setMeetingInfo (some m) }
      (.start pool (if pool then .createRow m else .store m))
  | .createRow m =>
    if env.ok then
      goTo (s.update m fun session => { session with row := some .recording })
        (.start pool (.startWriter m))
    else goTo s (.start pool (.startWriter m))
  | .startWriter m => goTo { s with dbWriter := some m } (.start pool (.store m))
  | .store m =>
    waitFor (!s.callbackLocked s.manager) (goTo (s.storeManager m) (.start pool (.initDiarizer m)))
  | .initDiarizer m =>
    if env.ok then
      goTo { s with diarizer := if env.found then some m else none } (.start pool (.spawnWorker m))
    else goTo s (.start pool (.spawnWorker m))
  | .spawnWorker m =>
    some ⟨s.update m fun session => { session with worker := .running },
      .start pool (.storeTask m), some (.worker m .idle)⟩
  | .storeTask m => goTo { s with transcriptionTask := some m } (.start pool (.subscribe m))
  | .subscribe m => goTo { s with subscriber := some m } (.start pool .emitStarted)
  | .emitStarted => goTo s (.start pool (if env.ok then .emitRecording else .release))
  | .emitRecording => goTo (s.emitPhase env.now .recording) (.start pool .release)
  | .emitIdle created =>
    goTo (s.emitPhase env.now .idle)
      (.start pool (match created with | some m => .dropManager m | none => .release))
  | .dropManager m =>
    waitFor (!s.callbackLocked (some m)) (goTo (s.dropManager m) (.start pool .release))
  | .release => goTo { s with startInProgress := false } .finished

/-- `stop` -/
def stopStep (call : StopCall) (env : Env) (s : Service) :
    StopPc → Option (Tasks.Move Service ServiceTask)
  | .checkManager => goTo s (.stop call (if s.manager.isSome then .tryStop else .loadStop))
  | .loadStop => goTo s (if s.stopInProgress then .stop call .tryStop else .finished)
  | .tryStop =>
    if s.stopInProgress then goTo s .finished
    else goTo { s with stopInProgress := true } (.stop call .readPhase)
  | .readPhase =>
    goTo s (.stop { call with wasFatalError := s.phase.phase == .error } .readMeeting)
  | .readMeeting => goTo s (.stop { call with meetingId := s.manager } .emitStopping)
  | .emitStopping => goTo (s.emitPhase env.now .stopping) (.stop call .take)
  | .take =>
    goTo { s with manager := none }
      (.stop call (match s.manager with | some m => .stopRecording m | none => .emitFinalising))
  | .stopRecording m =>
    goTo (s.update m fun session => { session with state := session.state.stopRecording })
      (.stop call (.stopStreams m))
  | .stopStreams m =>
    -- joins the thread that reports errors
    waitFor ((s.sessions m).reporters == 0)
      (goTo (s.update m fun session => { session with streamsOpen := false })
        (.stop call (.cleanup m)))
  | .cleanup m =>
    waitFor (!s.callbackLocked (some m))
      (goTo (s.update m fun session => { session with state := session.state.cleanup })
        (.stop call (.replay m)))
  | .replay m =>
    goTo { s.update m fun session => { session with segments := session.segments ++ s.pending }
      with pending := [] } (.stop call (.putBack m))
  | .putBack m =>
    waitFor (!s.callbackLocked s.manager) (goTo (s.storeManager m) (.stop call .emitFinalising))
  | .emitFinalising => goTo (s.emitPhase env.now .finalising) (.stop call .takeTask)
  | .takeTask =>
    goTo { s with transcriptionTask := none }
      (.stop call (match s.transcriptionTask with | some m => .drain m | none => .unsubscribe))
  | .drain m =>
    if env.ok then
      waitFor ((s.sessions m).worker == .done) (goTo s (.stop call .unsubscribe))
    else
      -- the queue has stalled
      goTo (s.update m fun session =>
        { session with worker := if session.worker = .running then .aborted else session.worker })
        (.stop call .unsubscribe)
  | .unsubscribe => goTo { s with subscriber := none } (.stop call .takeWriter)
  | .takeWriter => goTo { s with dbWriter := none } (.stop call .finalTake)
  | .finalTake => goTo { s with manager := none } (.stop call (.save s.manager))
  | .save none => goTo s (.stop call .finaliseRow)
  | .save (some m) =>
    waitFor (!s.callbackLocked (some m)) (goTo (s.dropManager m) (.stop call .finaliseRow))
  | .finaliseRow =>
    match call.meetingId with
    | some m =>
      if call.pool && env.ok then
        goTo (s.update m fun session => { session with
          row := session.row.map fun _ => if call.wasFatalError then .interrupted else .completed })
          (.stop call .emitStopped)
      else goTo s (.stop call .emitStopped)
    | none => goTo s (.stop call .emitStopped)
  | .emitStopped => goTo s (.stop call (if env.ok then .emitIdle else .release))
  | .emitIdle => goTo (s.emitPhase env.now .idle) (.stop call .release)
  | .release => goTo { s with stopInProgress := false } .finished

/-- `pause_recording` and `resume_recording` -/
def toggleStep (resume : Bool) (env : Env) (s : Service) :
    TogglePc → Option (Tasks.Move Service ServiceTask)
  | .checkRecording => goTo s (if s.isRecording then .toggle resume .toggle else .finished)
  | .toggle =>
    match s.manager with
    | none => goTo s .finished
    | some m =>
      let state := (s.sessions m).state
      match if resume then state.resumeRecording else state.pauseRecording with
      | .error _ => goTo s .finished
      | .ok state =>
        goTo (s.update m fun session => { session with state }) (.toggle resume .emitEvent)
  | .emitEvent => goTo s (if env.ok then .toggle resume .emitPhase else .finished)
  | .emitPhase => goTo (s.emitPhase env.now (if resume then .recording else .paused)) .finished

/-- A report returns. -/
def reportDone (s : Service) (m : SessionId) : Option (Tasks.Move Service ServiceTask) :=
  goTo (s.update m fun session => { session with reporters := session.reporters - 1 }) .finished

/-- `report_error` after the error was counted. -/
def reportCounted (s : Service) (m : SessionId) (error : AudioError) (count recoverable : ℕ) :
    Option (Tasks.Move Service ServiceTask) :=
  if RecordingState.isFatal error count recoverable then goTo s (.report m error .swap)
  else reportDone s m

/-- `report_error` and `spawn_fatal_error_stop` -/
def reportStep (m : SessionId) (error : AudioError) (env : Env) (s : Service) :
    ReportPc → Option (Tasks.Move Service ServiceTask)
  | .count =>
    let counted := s.update m fun session => { session with state := session.state.countError }
    let count := (s.sessions m).state.errorCount + 1
    if error.isRecoverable then goTo counted (.report m error (.countRecoverable count))
    else reportCounted counted m error count 0
  | .countRecoverable count =>
    let counted := s.update m fun session =>
      { session with state := session.state.countRecoverable }
    reportCounted counted m error count ((s.sessions m).state.recoverableErrorCount + 1)
  | .swap =>
    let marked := s.update m fun session => { session with state := session.state.markErrored }
    if (s.sessions m).state.errored then reportDone marked m
    else goTo marked (.report m error .lockCallback)
  | .lockCallback =>
    waitFor (!(s.sessions m).callbackLocked)
      (if (s.sessions m).state.errorCallback then
        goTo (s.update m fun session => { session with callbackLocked := true })
          (.report m error .setMessage)
      else reportDone s m)
  | .setMessage =>
    goTo { s with phase := s.phase.setErrorMessage (some error.userMessage) }
      (.report m error .emitError)
  | .emitError => goTo (s.emitPhase env.now .error) (.report m error .spawnStop)
  | .spawnStop =>
    some ⟨s.update m fun session =>
      { session with callbackLocked := false, reporters := session.reporters - 1 },
      .finished, some (.stop ⟨(s.sessions m).pool, false, none⟩ .checkManager)⟩

/-- The transcription worker: it publishes another segment, or it finishes. -/
def workerStep (m : SessionId) (env : Env) (s : Service) :
    WorkerPc → Option (Tasks.Move Service ServiceTask)
  | .idle =>
    if env.ok then
      let segment : Segment := ⟨m, (s.sessions m).published.length⟩
      goTo (s.update m fun session => { session with published := session.published ++ [segment] })
        (.worker m (match s.subscriber with | some c => .enqueue c segment | none => .idle))
    else goTo (s.update m fun session => { session with worker := .done }) .finished
  | .enqueue c segment =>
    goTo { s with
      enqueued := if s.dbWriter.isSome then s.enqueued ++ [(c, segment)] else s.enqueued }
      (.worker m (.deliver segment))
  | .deliver segment =>
    match s.manager with
    | some c =>
      goTo (s.update c fun session => { session with segments := session.segments ++ [segment] })
        (.worker m .idle)
    | none => goTo { s with pending := s.pending ++ [segment] } (.worker m .idle)

/-- How a call from outside begins. -/
def begins : ServiceCall → Service → Option (Service × ServiceTask)
  | .start pool, s => some (s, .start pool .tryStart)
  | .stop pool, s => some (s, .stop ⟨pool, false, none⟩ .checkManager)
  | .pause, s => some (s, .toggle false .checkRecording)
  | .resume, s => some (s, .toggle true .checkRecording)
  | .report m error, s =>
    if (s.sessions m).streamsOpen then
      some (s.update m fun session => { session with reporters := session.reporters + 1 },
        .report m error .count)
    else none

/-- One step of a task. -/
def step (env : Env) (s : Service) : ServiceTask → Option (Tasks.Move Service ServiceTask)
  | .free => none
  | .start pool pc => startStep pool env s pc
  | .stop call pc => stopStep call env s pc
  | .toggle resume pc => toggleStep resume env s pc
  | .report m error pc => reportStep m error env s pc
  | .worker m pc => workerStep m env s pc
  | .finished => none

/-- The program of the service. -/
def program : Tasks.Program Service ServiceTask Env ServiceCall where
  isFree task := match task with | .free => true | _ => false
  begins := begins
  step := step

/-- The configuration at program start. -/
def start : Tasks.Config Service ServiceTask := ⟨.initial, fun _ => .free⟩

end RecordingService

end MeetilyLocal
