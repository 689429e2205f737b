import MeetilyLocal.Recording.SessionStates

/-!
# The way of a transcript segment

Of the whole service, the slot `RECORDING_MANAGER`, `TRANSCRIPTION_TASK`, `PENDING_SEGMENT_BUFFER`
and the segments of the sessions decide where a published segment ends up (`Delivery`). A task is
at a stage of that (`Stage`), and `DeliveryStep` lists all that a step can do to it. The steps of
the service are such steps, where a drain ends with its worker and a start that gets past
`begin_start_phase` finds no manager (`RecordingService.deliveryStep_of_step`).
-/

namespace MeetilyLocal

/-- What decides about the segments. -/
structure Delivery : Type where
  /-- `RECORDING_MANAGER` -/
  manager : Option SessionId
  /-- `TRANSCRIPTION_TASK` -/
  task : Option SessionId
  /-- `PENDING_SEGMENT_BUFFER` -/
  pending : List Segment
  /-- the worker of each session -/
  worker : SessionId → WorkerStatus
  /-- the segments of each session's manager -/
  segments : SessionId → List Segment
  /-- the segments that each session's worker published -/
  published : SessionId → List Segment
  /-- the next session's number -/
  nextSession : SessionId

/-- The part of the shared state that decides about the segments. -/
def Service.delivery (s : Service) : Delivery where
  manager := s.manager
  task := s.transcriptionTask
  pending := s.pending
  worker m := (s.sessions m).worker
  segments m := (s.sessions m).segments
  published m := (s.sessions m).published
  nextSession := s.nextSession

/-- Where a task is on the way of the segments. -/
inductive Stage : Type where
  /-- it has nothing to do with them, or has not begun -/
  | away : Stage
  /-- a start or a stop that has changed nothing, or leaves all in order -/
  | looks : Stage
  /-- a start that may go on, with the manager it has created -/
  | prepares : Option SessionId → Stage
  /-- a start that has stored its manager -/
  | stored : SessionId → Stage
  /-- a start that has started its worker -/
  | spawned : SessionId → Stage
  /-- a stop that has taken the manager out for a while -/
  | carries : SessionId → Stage
  /-- a stop that has replayed the buffered segments, and not put the manager back -/
  | replayed : SessionId → Stage
  /-- a stop that waits for the worker -/
  | drains : SessionId → Stage
  /-- a stop for which the worker has finished -/
  | drained : Stage
  /-- a stop that has taken the manager out for good -/
  | saved : Stage
  /-- a worker, with the segment it is publishing -/
  | works : SessionId → Option Segment → Stage

/-- The stage of a start. -/
def StartPc.stage : StartPc → Stage
  | .tryStart => .away
  | .loadStop | .checkRecording => .looks
  | .emitStarting | .validate | .create => .prepares none
  | .beginRecording m | .startPipeline m | .startStreams m | .abortStart m | .setMeetingInfo m
  | .createRow m | .startWriter m | .store m | .dropManager m => .prepares (some m)
  | .emitIdle created => .prepares created
  | .initDiarizer m | .spawnWorker m => .stored m
  | .storeTask m => .spawned m
  | .subscribe _ | .emitStarted | .emitRecording | .release => .looks

/-- The stage of a stop. -/
def StopPc.stage : StopPc → Stage
  | .checkManager | .loadStop | .tryStop => .away
  | .readPhase | .readMeeting | .emitStopping | .take | .emitFinalising | .takeTask => .looks
  | .stopRecording m | .stopStreams m | .cleanup m | .replay m => .carries m
  | .putBack m => .replayed m
  | .drain m => .drains m
  | .unsubscribe | .takeWriter | .finalTake => .drained
  | .save _ | .finaliseRow | .emitStopped | .emitIdle | .release => .saved

/-- The stage of a worker. -/
def WorkerPc.stage (m : SessionId) : WorkerPc → Stage
  | .idle => .works m none
  | .enqueue _ segment | .deliver segment => .works m (some segment)

/-- The stage of a task. -/
def ServiceTask.stage : ServiceTask → Stage
  | .start _ pc => pc.stage
  | .stop _ pc => pc.stage
  | .worker m pc => pc.stage m
  | _ => .away

namespace Delivery

/-- A manager is created. -/
def create (v : Delivery) : Delivery :=
  { v with
    worker := Function.update v.worker v.nextSession .notStarted
    segments := Function.update v.segments v.nextSession []
    published := Function.update v.published v.nextSession []
    nextSession := v.nextSession + 1 }

/-- Segments are added to the manager of a session. -/
def add (v : Delivery) (m : SessionId) (added : List Segment) : Delivery :=
  { v with segments := Function.update v.segments m (v.segments m ++ added) }

/-- The segment that the worker of a session publishes next. -/
def nextSegment (v : Delivery) (m : SessionId) : Segment := ⟨m, (v.published m).length⟩

/-- It is published. -/
def publish (v : Delivery) (m : SessionId) : Delivery :=
  { v with published := Function.update v.published m (v.published m ++ [v.nextSegment m]) }

/-- The worker of a session is started, or finishes. -/
def setWorker (v : Delivery) (m : SessionId) (status : WorkerStatus) : Delivery :=
  { v with worker := Function.update v.worker m status }

end Delivery

namespace Delivery

variable {v : Delivery} {m other : SessionId} {added : List Segment} {status : WorkerStatus}

@[simp] theorem worker_create_self : v.create.worker v.nextSession = .notStarted :=
  Function.update_self _ _ _

@[simp] theorem segments_create_self : v.create.segments v.nextSession = [] :=
  Function.update_self _ _ _

@[simp] theorem published_create_self : v.create.published v.nextSession = [] :=
  Function.update_self _ _ _

@[simp] theorem segments_add_self : (v.add m added).segments m = v.segments m ++ added :=
  Function.update_self _ _ _

@[simp] theorem published_publish_self :
    (v.publish m).published m = v.published m ++ [v.nextSegment m] :=
  Function.update_self _ _ _

@[simp] theorem worker_setWorker_self : (v.setWorker m status).worker m = status :=
  Function.update_self _ _ _

theorem worker_create_of_ne (h : other ≠ v.nextSession) :
    v.create.worker other = v.worker other := Function.update_of_ne h _ _

theorem segments_create_of_ne (h : other ≠ v.nextSession) :
    v.create.segments other = v.segments other := Function.update_of_ne h _ _

theorem published_create_of_ne (h : other ≠ v.nextSession) :
    v.create.published other = v.published other := Function.update_of_ne h _ _

theorem segments_add_of_ne (h : other ≠ m) : (v.add m added).segments other = v.segments other :=
  Function.update_of_ne h _ _

theorem published_publish_of_ne (h : other ≠ m) :
    (v.publish m).published other = v.published other := Function.update_of_ne h _ _

theorem worker_setWorker_of_ne (h : other ≠ m) :
    (v.setWorker m status).worker other = v.worker other := Function.update_of_ne h _ _

end Delivery

/-- What a step can do to the segments, by the stage of the task that takes it. -/
inductive DeliveryStep : Delivery → Stage → Delivery → Stage → Prop where
  /-- nothing -/
  | stays {v : Delivery} {g : Stage} : DeliveryStep v g v g
  /-- a start or a stop gets its flag -/
  | begins {v : Delivery} : DeliveryStep v .away v .looks
  /-- a start clears it -/
  | startEnds {v : Delivery} : DeliveryStep v .looks v .away
  /-- a start may go on -/
  | prepares {v : Delivery} : v.manager = none → DeliveryStep v .looks v (.prepares none)
  /-- it creates a manager -/
  | creates {v : Delivery} :
      DeliveryStep v (.prepares none) v.create (.prepares (some v.nextSession))
  /-- it fails -/
  | fails {v : Delivery} {created : Option SessionId} : DeliveryStep v (.prepares created) v .looks
  /-- it stores its manager -/
  | stores {v : Delivery} {m : SessionId} :
      DeliveryStep v (.prepares (some m)) { v with manager := some m } (.stored m)
  /-- it starts its worker -/
  | spawns {v : Delivery} {m : SessionId} :
      DeliveryStep v (.stored m) (v.setWorker m .running) (.spawned m)
  /-- it stores the worker's handle -/
  | storesTask {v : Delivery} {m : SessionId} :
      DeliveryStep v (.spawned m) { v with task := some m } .looks
  /-- a stop takes the manager out -/
  | takes {v : Delivery} {m : SessionId} : v.manager = some m →
      DeliveryStep v .looks { v with manager := none } (.carries m)
  /-- there is none -/
  | takesNothing {v : Delivery} : v.manager = none →
      DeliveryStep v .looks { v with manager := none } .looks
  /-- it replays the buffered segments -/
  | replays {v : Delivery} {m : SessionId} :
      DeliveryStep v (.carries m) { v.add m v.pending with pending := [] } (.replayed m)
  /-- it puts the manager back -/
  | putsBack {v : Delivery} {m : SessionId} :
      DeliveryStep v (.replayed m) { v with manager := some m } .looks
  /-- it takes the handle of the worker -/
  | takesTask {v : Delivery} {m : SessionId} : v.task = some m →
      DeliveryStep v .looks { v with task := none } (.drains m)
  /-- there is none -/
  | takesNoTask {v : Delivery} : v.task = none →
      DeliveryStep v .looks { v with task := none } .drained
  /-- the worker has finished -/
  | drainEnds {v : Delivery} {m : SessionId} : v.worker m = .done →
      DeliveryStep v (.drains m) v .drained
  /-- it takes the manager out for good -/
  | takesAll {v : Delivery} : DeliveryStep v .drained { v with manager := none } .saved
  /-- it clears its flag -/
  | stopEnds {v : Delivery} : DeliveryStep v .saved v .away
  /-- a worker publishes a segment -/
  | publishes {v : Delivery} {m : SessionId} :
      DeliveryStep v (.works m none) (v.publish m) (.works m (some (v.nextSegment m)))
  /-- the subscriber finds a manager -/
  | delivers {v : Delivery} {m c : SessionId} {segment : Segment} : v.manager = some c →
      DeliveryStep v (.works m (some segment)) (v.add c [segment]) (.works m none)
  /-- it finds none -/
  | buffers {v : Delivery} {m : SessionId} {segment : Segment} : v.manager = none →
      DeliveryStep v (.works m (some segment)) { v with pending := v.pending ++ [segment] }
        (.works m none)
  /-- a worker finishes -/
  | finishes {v : Delivery} {m : SessionId} :
      DeliveryStep v (.works m none) (v.setWorker m .done) .away

/-! ## The segments of the service -/

namespace Service

variable {s : Service} {m : SessionId} {f : Session → Session}

theorem delivery_update :
    (s.update m f).delivery = { s.delivery with
      worker := Function.update s.delivery.worker m (f (s.sessions m)).worker
      segments := Function.update s.delivery.segments m (f (s.sessions m)).segments
      published := Function.update s.delivery.published m (f (s.sessions m)).published } := by
  simp only [delivery, update]
  congr 1
  all_goals
    funext other
    rcases eq_or_ne other m with rfl | hne
    · simp
    · simp [hne]

/-- A change of a session that leaves its worker and its segments. -/
theorem delivery_update_same (h : (f (s.sessions m)).worker = (s.sessions m).worker ∧
    (f (s.sessions m)).segments = (s.sessions m).segments ∧
    (f (s.sessions m)).published = (s.sessions m).published) :
    (s.update m f).delivery = s.delivery := by
  obtain ⟨hworker, hsegments, hpublished⟩ := h
  rw [delivery_update, hworker, hsegments, hpublished]
  have hw := Function.update_eq_self m s.delivery.worker
  have hs := Function.update_eq_self m s.delivery.segments
  have hp := Function.update_eq_self m s.delivery.published
  simp only [delivery] at hw hs hp ⊢
  rw [hw, hs, hp]

theorem delivery_storeManager :
    (s.storeManager m).delivery = { s.delivery with manager := some m } := by
  rw [storeManager]
  split
  · next old hold =>
    have hsame : (s.dropManager old).delivery = s.delivery := delivery_update_same ⟨rfl, rfl, rfl⟩
    exact congrArg (fun v : Delivery => { v with manager := some m }) hsame
  · rfl

/-- A session is created. -/
theorem delivery_create (pool : Bool) :
    ({ s.update s.nextSession fun _ => .new pool with nextSession := s.nextSession + 1 } :
      Service).delivery = s.delivery.create := by
  have hupdate : (s.update s.nextSession fun _ => .new pool).delivery = _ := delivery_update
  exact congrArg (fun v : Delivery => { v with nextSession := s.nextSession + 1 }) hupdate

/-- Segments are added to a session. -/
theorem delivery_add {added : List Segment} :
    (s.update m fun session => { session with segments := session.segments ++ added }).delivery =
      s.delivery.add m added := by
  rw [delivery_update]
  have hw := Function.update_eq_self m s.delivery.worker
  have hp := Function.update_eq_self m s.delivery.published
  simp only [delivery, Delivery.add] at hw hp ⊢
  rw [hw, hp]

/-- A session's worker publishes a segment. -/
theorem delivery_publish :
    (s.update m fun session => { session with
      published := session.published ++ [s.delivery.nextSegment m] }).delivery =
      s.delivery.publish m := by
  rw [delivery_update]
  have hw := Function.update_eq_self m s.delivery.worker
  have hs := Function.update_eq_self m s.delivery.segments
  simp only [delivery, Delivery.publish] at hw hs ⊢
  rw [hw, hs]

/-- A session's worker is started, or finishes. -/
theorem delivery_setWorker {status : WorkerStatus} :
    (s.update m fun session => { session with worker := status }).delivery =
      s.delivery.setWorker m status := by
  rw [delivery_update]
  have hs := Function.update_eq_self m s.delivery.segments
  have hp := Function.update_eq_self m s.delivery.published
  simp only [delivery, Delivery.setWorker] at hs hp ⊢
  rw [hs, hp]

end Service

namespace RecordingService

variable {env : Env} {s : Service} {move : Tasks.Move Service ServiceTask}

/-- A step that leaves the segments where they are. -/
theorem deliveryStep_stays {g g' : Stage} {s' : Service} (hstage : g' = g)
    (hdelivery : s'.delivery = s.delivery) : DeliveryStep s.delivery g s'.delivery g' := by
  rw [hstage, hdelivery]
  exact .stays

/-- What a start does to the segments. -/
theorem deliveryStep_startStep {pool : Bool} {pc : StartPc} (h : startStep pool env s pc = some move)
    (hchecks : pc = .checkRecording → s.isRecording = false → s.manager = none) :
    DeliveryStep s.delivery pc.stage move.shared.delivery move.task.stage := by
  cases pc with
  | tryStart =>
    rw [startStep] at h
    split at h <;> cases h
    · exact .stays
    · exact .begins
  | loadStop =>
    cases h
    rcases s.stopInProgress with _ | _ <;> exact .stays
  | checkRecording =>
    cases h
    rcases hrecording : s.isRecording with _ | _
    · exact .prepares (hchecks rfl hrecording)
    · exact .stays
  | emitStarting => cases h; exact .stays
  | validate =>
    cases h
    rcases env.ok with _ | _ <;> exact .stays
  | create =>
    cases h
    have hcreates : DeliveryStep s.delivery (.prepares none) s.delivery.create
        (.prepares (some s.nextSession)) := .creates
    rw [← Service.delivery_create pool] at hcreates
    exact hcreates
  | beginRecording m =>
    cases h
    exact deliveryStep_stays rfl (Service.delivery_update_same ⟨rfl, rfl, rfl⟩)
  | startPipeline m =>
    rw [startStep] at h
    split at h <;> cases h
    · exact deliveryStep_stays rfl (Service.delivery_update_same ⟨rfl, rfl, rfl⟩)
    · exact .stays
  | startStreams m =>
    cases h
    rcases env.ok with _ | _ <;> exact .stays
  | abortStart m =>
    cases h
    exact deliveryStep_stays rfl (Service.delivery_update_same ⟨rfl, rfl, rfl⟩)
  | setMeetingInfo m =>
    cases h
    rcases pool with _ | _ <;> exact .stays
  | createRow m =>
    rw [startStep] at h
    split at h <;> cases h
    · exact deliveryStep_stays rfl (Service.delivery_update_same ⟨rfl, rfl, rfl⟩)
    · exact .stays
  | startWriter m => cases h; exact .stays
  | store m =>
    obtain ⟨-, h⟩ := of_waitFor h
    cases h
    show DeliveryStep _ (.prepares (some m)) (s.storeManager m).delivery (.stored m)
    rw [Service.delivery_storeManager]
    exact .stores
  | initDiarizer m =>
    rw [startStep] at h
    split at h <;> cases h <;> exact .stays
  | spawnWorker m =>
    cases h
    show DeliveryStep _ (.stored m) (Service.delivery _) (.spawned m)
    rw [Service.delivery_setWorker]
    exact .spawns
  | storeTask m => cases h; exact .storesTask
  | subscribe m => cases h; exact .stays
  | emitStarted =>
    cases h
    rcases env.ok with _ | _ <;> exact .stays
  | emitRecording => cases h; exact .stays
  | emitIdle created =>
    cases h
    rcases created with _ | m
    · exact .fails
    · exact .stays
  | dropManager m =>
    obtain ⟨-, h⟩ := of_waitFor h
    cases h
    have hsame : (s.dropManager m).delivery = s.delivery :=
      Service.delivery_update_same ⟨rfl, rfl, rfl⟩
    show DeliveryStep _ (.prepares (some m)) (s.dropManager m).delivery .looks
    rw [hsame]
    exact .fails
  | release => cases h; exact .startEnds

/-- What a stop does to the segments, if it does not abort the worker. -/
theorem deliveryStep_stopStep {call : StopCall} {pc : StopPc} (h : stopStep call env s pc = some move)
    (hdrains : ∀ m, pc = .drain m → env.ok = true) :
    DeliveryStep s.delivery pc.stage move.shared.delivery move.task.stage := by
  cases pc with
  | checkManager =>
    cases h
    rcases s.manager.isSome with _ | _ <;> exact .stays
  | loadStop =>
    cases h
    rcases s.stopInProgress with _ | _ <;> exact .stays
  | tryStop =>
    rw [stopStep] at h
    split at h <;> cases h
    · exact .stays
    · exact .begins
  | take =>
    cases h
    rcases hmanager : s.manager with _ | m
    · exact .takesNothing hmanager
    · exact .takes hmanager
  | stopRecording m =>
    cases h
    exact deliveryStep_stays rfl (Service.delivery_update_same ⟨rfl, rfl, rfl⟩)
  | stopStreams m =>
    obtain ⟨-, h⟩ := of_waitFor h
    cases h
    exact deliveryStep_stays rfl (Service.delivery_update_same ⟨rfl, rfl, rfl⟩)
  | cleanup m =>
    obtain ⟨-, h⟩ := of_waitFor h
    cases h
    exact deliveryStep_stays rfl (Service.delivery_update_same ⟨rfl, rfl, rfl⟩)
  | replay m =>
    cases h
    have hadd : (s.update m fun session =>
        { session with segments := session.segments ++ s.pending }).delivery =
        s.delivery.add m s.pending := Service.delivery_add
    have hreplays : DeliveryStep s.delivery (.carries m)
        { s.delivery.add m s.pending with pending := [] } (.replayed m) := .replays
    rw [← hadd] at hreplays
    exact hreplays
  | putBack m =>
    obtain ⟨-, h⟩ := of_waitFor h
    cases h
    show DeliveryStep _ (.replayed m) (s.storeManager m).delivery .looks
    rw [Service.delivery_storeManager]
    exact .putsBack
  | takeTask =>
    cases h
    rcases htask : s.transcriptionTask with _ | m
    · exact .takesNoTask htask
    · exact .takesTask htask
  | drain m =>
    rw [stopStep, if_pos (hdrains m rfl)] at h
    obtain ⟨hdone, h⟩ := of_waitFor h
    cases h
    exact .drainEnds (eq_of_beq hdone)
  | finalTake => cases h; exact .takesAll
  | save taken =>
    rcases taken with _ | m
    · cases h
      exact .stays
    · obtain ⟨-, h⟩ := of_waitFor h
      cases h
      exact deliveryStep_stays rfl (Service.delivery_update_same ⟨rfl, rfl, rfl⟩)
  | finaliseRow =>
    rw [stopStep] at h
    split at h
    · split at h <;> cases h
      · exact deliveryStep_stays rfl (Service.delivery_update_same ⟨rfl, rfl, rfl⟩)
      · exact .stays
    · cases h
      exact .stays
  | emitStopped =>
    cases h
    rcases env.ok with _ | _ <;> exact .stays
  | release => cases h; exact .stopEnds
  | _ => cases h; exact .stays

/-- A pause or a resume leaves the segments. -/
theorem delivery_toggleStep {resume : Bool} {pc : TogglePc}
    (h : toggleStep resume env s pc = some move) :
    move.shared.delivery = s.delivery ∧ move.task.stage = .away := by
  cases pc with
  | checkRecording =>
    cases h
    rcases s.isRecording with _ | _ <;> exact ⟨rfl, rfl⟩
  | toggle =>
    rcases toggleStep_cases h with ⟨rfl, -⟩ | ⟨m, -, -, -, rfl⟩
    · exact ⟨rfl, rfl⟩
    · exact ⟨Service.delivery_update_same ⟨rfl, rfl, rfl⟩, rfl⟩
  | emitEvent =>
    cases h
    rcases env.ok with _ | _ <;> exact ⟨rfl, rfl⟩
  | emitPhase => cases h; exact ⟨rfl, rfl⟩

theorem delivery_reportDone {m : SessionId} (h : reportDone s m = some move) :
    move.shared.delivery = s.delivery ∧ move.task.stage = .away := by
  cases h
  exact ⟨Service.delivery_update_same ⟨rfl, rfl, rfl⟩, rfl⟩

theorem delivery_reportCounted {m : SessionId} {error : AudioError} {count recoverable : ℕ}
    (h : reportCounted s m error count recoverable = some move) :
    move.shared.delivery = s.delivery ∧ move.task.stage = .away := by
  rw [reportCounted] at h
  split at h
  · cases h
    exact ⟨rfl, rfl⟩
  · exact delivery_reportDone h

/-- So does a report. -/
theorem delivery_reportStep {m : SessionId} {error : AudioError} {pc : ReportPc}
    (h : reportStep m error env s pc = some move) :
    move.shared.delivery = s.delivery ∧ move.task.stage = .away := by
  have hsame : ∀ {f : Session → Session}, ((f (s.sessions m)).worker = (s.sessions m).worker ∧
      (f (s.sessions m)).segments = (s.sessions m).segments ∧
      (f (s.sessions m)).published = (s.sessions m).published) →
      (s.update m f).delivery = s.delivery := Service.delivery_update_same
  cases pc with
  | count =>
    rw [reportStep] at h
    split at h
    · cases h
      exact ⟨hsame ⟨rfl, rfl, rfl⟩, rfl⟩
    · obtain ⟨hdelivery, hstage⟩ := delivery_reportCounted h
      exact ⟨hdelivery.trans (hsame ⟨rfl, rfl, rfl⟩), hstage⟩
  | countRecoverable count =>
    obtain ⟨hdelivery, hstage⟩ := delivery_reportCounted h
    exact ⟨hdelivery.trans (hsame ⟨rfl, rfl, rfl⟩), hstage⟩
  | swap =>
    rw [reportStep] at h
    split at h
    · obtain ⟨hdelivery, hstage⟩ := delivery_reportDone h
      exact ⟨hdelivery.trans (hsame ⟨rfl, rfl, rfl⟩), hstage⟩
    · cases h
      exact ⟨hsame ⟨rfl, rfl, rfl⟩, rfl⟩
  | lockCallback =>
    obtain ⟨-, h⟩ := of_waitFor h
    split at h
    · cases h
      exact ⟨hsame ⟨rfl, rfl, rfl⟩, rfl⟩
    · exact delivery_reportDone h
  | setMessage => cases h; exact ⟨rfl, rfl⟩
  | emitError => cases h; exact ⟨rfl, rfl⟩
  | spawnStop => cases h; exact ⟨hsame ⟨rfl, rfl, rfl⟩, rfl⟩

/-- What a worker does to the segments, if a subscriber is installed when it publishes. -/
theorem deliveryStep_workerStep {m : SessionId} {pc : WorkerPc}
    (h : workerStep m env s pc = some move)
    (hpublishes : pc = .idle → env.ok = true → s.subscriber.isSome = true) :
    DeliveryStep s.delivery (pc.stage m) move.shared.delivery move.task.stage := by
  cases pc with
  | idle =>
    rw [workerStep] at h
    split at h
    · next hok =>
      obtain ⟨c, hsubscriber⟩ := Option.isSome_iff_exists.mp (hpublishes rfl hok)
      rw [hsubscriber] at h
      cases h
      have hstep : DeliveryStep s.delivery (.works m none) (s.delivery.publish m)
          (.works m (some (s.delivery.nextSegment m))) := .publishes
      rw [← Service.delivery_publish] at hstep
      exact hstep
    · cases h
      show DeliveryStep _ (.works m none) (Service.delivery _) .away
      rw [Service.delivery_setWorker]
      exact .finishes
  | enqueue c segment => cases h; exact .stays
  | deliver segment =>
    rw [workerStep] at h
    split at h
    · next c hmanager =>
      cases h
      show DeliveryStep _ (.works m (some segment)) (Service.delivery _) (.works m none)
      rw [Service.delivery_add]
      exact .delivers hmanager
    · next hmanager =>
      cases h
      exact .buffers hmanager

/-- **Inversion.** Every step of the service is a step on the way of the segments, if it does not
abort a worker, publish without a subscriber, or go past a manager that does not record. -/
theorem deliveryStep_of_step {a : ServiceTask} (h : step env s a = some move)
    (hchecks : a.role = .startChecks → s.isRecording = false → s.manager = none)
    (hdrains : ∀ call m, a = .stop call (.drain m) → env.ok = true)
    (hpublishes : ∀ m, a = .worker m .idle → env.ok = true → s.subscriber.isSome = true) :
    DeliveryStep s.delivery a.stage move.shared.delivery move.task.stage := by
  cases a with
  | free => cases h
  | start pool pc =>
    refine deliveryStep_startStep h fun hpc => hchecks ?_
    rw [hpc]
    rfl
  | stop call pc => exact deliveryStep_stopStep h fun m hpc => hdrains call m (hpc ▸ rfl)
  | toggle resume pc =>
    obtain ⟨hdelivery, hstage⟩ := delivery_toggleStep h
    exact deliveryStep_stays hstage hdelivery
  | report m error pc =>
    obtain ⟨hdelivery, hstage⟩ := delivery_reportStep h
    exact deliveryStep_stays hstage hdelivery
  | worker m pc => exact deliveryStep_workerStep h fun hpc => hpublishes m (hpc ▸ rfl)
  | finished => cases h

/-- A call leaves the segments, and begins away from them. -/
theorem delivery_begins {k : ServiceCall} {s' : Service} {a : ServiceTask}
    (h : begins k s = some (s', a)) : s'.delivery = s.delivery ∧ a.stage = .away := by
  cases k with
  | report m error =>
    rw [begins] at h
    split at h
    · cases h
      exact ⟨Service.delivery_update_same ⟨rfl, rfl, rfl⟩, rfl⟩
    · cases h
  | _ => cases h; exact ⟨rfl, rfl⟩

/-- What is spawned: the worker of a start, or a stop, which begins away from the segments. -/
theorem stage_spawned {a child : ServiceTask} (h : step env s a = some move)
    (hspawned : move.spawned = some child) :
    (∃ m, a.stage = .stored m ∧ move.shared.delivery = s.delivery.setWorker m .running ∧
      move.task.stage = .spawned m ∧ child.stage = .works m none) ∨ child.stage = .away := by
  rcases spawned_cases h hspawned with ⟨pool, m, rfl, rfl⟩ | ⟨m, error, pool, rfl, rfl⟩
  · cases h
    exact .inl ⟨m, rfl, Service.delivery_setWorker, rfl, rfl⟩
  · exact .inr rfl

end RecordingService

end MeetilyLocal
