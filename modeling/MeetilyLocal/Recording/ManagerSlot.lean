import MeetilyLocal.Library.Guard
import MeetilyLocal.Recording.RecordingService

/-!
# The slot of the recording manager

`START_IN_PROGRESS`, `STOP_IN_PROGRESS`, the slot `RECORDING_MANAGER`, and which sessions record: of
the whole service, only this part decides who may start and whose manager is where (`Slot`). A task
plays a part in it by what it holds (`Role`), and `SlotStep` lists all that a step can do. The
service's steps are such steps (`RecordingService.slotStep_of_step`), and what follows is proved of
these alone.
-/

namespace MeetilyLocal

/-- What decides about the manager. -/
structure Slot : Type where
  /-- `START_IN_PROGRESS` -/
  startInProgress : Bool
  /-- `STOP_IN_PROGRESS` -/
  stopInProgress : Bool
  /-- `RECORDING_MANAGER` -/
  manager : Option SessionId
  /-- the session records -/
  recording : SessionId → Bool
  /-- the next session's number -/
  nextSession : SessionId

/-- The part of the shared state that decides about the manager. -/
def Service.slot (s : Service) : Slot :=
  ⟨s.startInProgress, s.stopInProgress, s.manager, fun m => (s.sessions m).state.isRecording,
    s.nextSession⟩

/-- The part of a task. -/
inductive Role : Type where
  /-- it has nothing to do with the slot -/
  | bystander : Role
  /-- a start that wants the flag -/
  | startTries : Role
  /-- a start that has the flag and looks for a stop -/
  | startLooks : Role
  /-- a start that saw no stop and looks for a recording -/
  | startChecks : Role
  /-- a start that may go on -/
  | startPrepares : Role
  /-- a start with a new manager -/
  | startOwns : SessionId → Role
  /-- a start with a manager that records -/
  | startRecords : SessionId → Role
  /-- a start that failed, with the manager it had created -/
  | startFails : Option SessionId → Role
  /-- a start that has only to clear the flag -/
  | startEnds : Role
  /-- a stop that looks whether there is something to stop -/
  | stopLooks : Role
  /-- a stop that wants the flag -/
  | stopTries : Role
  /-- a stop that has the flag -/
  | stopBegins : Role
  /-- a stop that has taken the manager out for a while -/
  | stopCarries : SessionId → Role
  /-- a stop that drains the transcription -/
  | stopDrains : Role
  /-- a stop that has taken the manager out for good -/
  | stopSaves : Option SessionId → Role
  /-- a stop that has only to clear the flag -/
  | stopEnds : Role
  deriving DecidableEq

namespace Role

/-- It has `START_IN_PROGRESS`. -/
def holdsStart : Role → Bool
  | startLooks | startChecks | startPrepares | startOwns _ | startRecords _ | startFails _
  | startEnds => true
  | _ => false

/-- It has `STOP_IN_PROGRESS`. -/
def holdsStop : Role → Bool
  | stopBegins | stopCarries _ | stopDrains | stopSaves _ | stopEnds => true
  | _ => false

/-- The manager that it has in its hands. -/
def owns : Role → Option SessionId
  | startOwns m | startRecords m | stopCarries m => some m
  | startFails created => created
  | stopSaves taken => taken
  | _ => none

/-- It is a start that will store a manager, if nothing fails. -/
def willStore : Role → Bool
  | startPrepares | startOwns _ | startRecords _ => true
  | _ => false

/-- It is a stop that will put its manager back. -/
def carries : Role → Bool
  | stopCarries _ => true
  | _ => false

end Role

/-- The part of a start. -/
def StartPc.role : StartPc → Role
  | .tryStart => .startTries
  | .loadStop => .startLooks
  | .checkRecording => .startChecks
  | .emitStarting | .validate | .create => .startPrepares
  | .beginRecording m => .startOwns m
  | .startPipeline m | .startStreams m | .setMeetingInfo m | .createRow m | .startWriter m
  | .store m => .startRecords m
  | .abortStart m | .dropManager m => .startFails (some m)
  | .emitIdle created => .startFails created
  | .initDiarizer _ | .spawnWorker _ | .storeTask _ | .subscribe _ | .emitStarted | .emitRecording
  | .release => .startEnds

/-- The part of a stop. -/
def StopPc.role : StopPc → Role
  | .checkManager | .loadStop => .stopLooks
  | .tryStop => .stopTries
  | .readPhase | .readMeeting | .emitStopping | .take => .stopBegins
  | .stopRecording m | .stopStreams m | .cleanup m | .replay m | .putBack m => .stopCarries m
  | .emitFinalising | .takeTask | .drain _ | .unsubscribe | .takeWriter | .finalTake => .stopDrains
  | .save taken => .stopSaves taken
  | .finaliseRow | .emitStopped | .emitIdle | .release => .stopEnds

/-- The part of a task. -/
def ServiceTask.role : ServiceTask → Role
  | .start _ pc => pc.role
  | .stop _ pc => pc.role
  | _ => .bystander

/-- A task that is about to store a manager. -/
def RecordingService.storesManager : ServiceTask → Bool
  | .start _ (.store _) => true
  | .stop _ (.putBack _) => true
  | _ => false

namespace Slot

/-- A session records or not. -/
def setRecording (σ : Slot) (m : SessionId) (recording : Bool) : Slot :=
  { σ with recording := Function.update σ.recording m recording }

/-- A manager is stored, and what was there is dropped. -/
def store (σ : Slot) (m : SessionId) : Slot :=
  match σ.manager with
  | some old => { σ.setRecording old false with manager := some m }
  | none => { σ with manager := some m }

end Slot

/-- What a step can do to the slot, by the part of the task that takes it. -/
inductive SlotStep : Slot → Role → Slot → Role → Prop where
  /-- nothing -/
  | stays {σ : Slot} {r : Role} : SlotStep σ r σ r
  /-- a start is refused -/
  | startRefused {σ : Slot} : SlotStep σ .startTries σ .bystander
  /-- a start gets the flag -/
  | startAcquires {σ : Slot} : σ.startInProgress = false →
      SlotStep σ .startTries { σ with startInProgress := true } .startLooks
  /-- a start sees a stop -/
  | seesStop {σ : Slot} : SlotStep σ .startLooks σ .startEnds
  /-- a start sees no stop -/
  | seesNoStop {σ : Slot} : σ.stopInProgress = false → SlotStep σ .startLooks σ .startChecks
  /-- a start sees a recording -/
  | seesRecording {σ : Slot} : SlotStep σ .startChecks σ .startEnds
  /-- a start sees no recording -/
  | seesNoRecording {σ : Slot} : (∀ m, σ.manager = some m → σ.recording m = false) →
      SlotStep σ .startChecks σ .startPrepares
  /-- a start fails early -/
  | givesUp {σ : Slot} : SlotStep σ .startPrepares σ (.startFails none)
  /-- a manager is created -/
  | creates {σ : Slot} : SlotStep σ .startPrepares
      { σ.setRecording σ.nextSession false with nextSession := σ.nextSession + 1 }
      (.startOwns σ.nextSession)
  /-- it begins to record -/
  | begins {σ : Slot} {m : SessionId} :
      SlotStep σ (.startOwns m) (σ.setRecording m true) (.startRecords m)
  /-- a start fails late -/
  | aborts {σ : Slot} {m : SessionId} : SlotStep σ (.startRecords m) σ (.startFails (some m))
  /-- the manager is stored -/
  | stores {σ : Slot} {m : SessionId} : SlotStep σ (.startRecords m) (σ.store m) .startEnds
  /-- the manager of a failed start stops recording -/
  | undoes {σ : Slot} {m : SessionId} :
      SlotStep σ (.startFails (some m)) (σ.setRecording m false) (.startFails (some m))
  /-- it is dropped -/
  | undone {σ : Slot} {m : SessionId} :
      SlotStep σ (.startFails (some m)) (σ.setRecording m false) .startEnds
  /-- there was none -/
  | nothingUndone {σ : Slot} : SlotStep σ (.startFails none) σ .startEnds
  /-- a start clears the flag -/
  | startReleases {σ : Slot} :
      SlotStep σ .startEnds { σ with startInProgress := false } .bystander
  /-- a stop finds something to stop -/
  | finds {σ : Slot} : SlotStep σ .stopLooks σ .stopTries
  /-- a stop finds nothing -/
  | findsNothing {σ : Slot} : SlotStep σ .stopLooks σ .bystander
  /-- a stop is refused -/
  | stopRefused {σ : Slot} : SlotStep σ .stopTries σ .bystander
  /-- a stop gets the flag -/
  | stopAcquires {σ : Slot} : σ.stopInProgress = false →
      SlotStep σ .stopTries { σ with stopInProgress := true } .stopBegins
  /-- the manager is taken out -/
  | takes {σ : Slot} {m : SessionId} : σ.manager = some m →
      SlotStep σ .stopBegins { σ with manager := none } (.stopCarries m)
  /-- there is none -/
  | takesNothing {σ : Slot} : σ.manager = none →
      SlotStep σ .stopBegins { σ with manager := none } .stopDrains
  /-- it stops recording -/
  | silences {σ : Slot} {m : SessionId} :
      SlotStep σ (.stopCarries m) (σ.setRecording m false) (.stopCarries m)
  /-- the manager is put back -/
  | putsBack {σ : Slot} {m : SessionId} : SlotStep σ (.stopCarries m) (σ.store m) .stopDrains
  /-- the manager is taken out for good -/
  | takesAll {σ : Slot} : SlotStep σ .stopDrains { σ with manager := none } (.stopSaves σ.manager)
  /-- it was saved and is dropped -/
  | saves {σ : Slot} {m : SessionId} :
      SlotStep σ (.stopSaves (some m)) (σ.setRecording m false) .stopEnds
  /-- there was nothing to save -/
  | savesNothing {σ : Slot} : SlotStep σ (.stopSaves none) σ .stopEnds
  /-- a stop clears the flag -/
  | stopReleases {σ : Slot} :
      SlotStep σ .stopEnds { σ with stopInProgress := false } .bystander

/-! ## The slot of the service -/

theorem Service.slot_update (s : Service) (m : SessionId) (f : Session → Session) :
    (s.update m f).slot = s.slot.setRecording m (f (s.sessions m)).state.isRecording := by
  simp only [Service.slot, Service.update, Slot.setRecording]
  congr 1
  funext other
  rcases eq_or_ne other m with rfl | hne
  · simp
  · simp [hne]

/-- A change of a session that leaves it recording or not. -/
theorem Service.slot_update_same {s : Service} {m : SessionId} {f : Session → Session}
    (h : (f (s.sessions m)).state.isRecording = (s.sessions m).state.isRecording) :
    (s.update m f).slot = s.slot := by
  rw [Service.slot_update, h, Slot.setRecording]
  congr 1
  exact Function.update_eq_self m s.slot.recording

theorem Service.slot_dropManager (s : Service) (m : SessionId) :
    (s.dropManager m).slot = s.slot.setRecording m false := s.slot_update m _

theorem Service.slot_storeManager (s : Service) (m : SessionId) :
    (s.storeManager m).slot = s.slot.store m := by
  rw [Service.storeManager, Slot.store]
  rcases hold : s.manager with _ | old
  · simp [Service.slot, hold]
  · have hmanager : s.slot.manager = some old := hold
    rw [hmanager]
    show ({ (s.dropManager old).slot with manager := some m } : Slot) =
      { s.slot.setRecording old false with manager := some m }
    rw [Service.slot_dropManager]

namespace RecordingService

variable {env : Env} {s : Service} {move : Tasks.Move Service ServiceTask}

/-- What a start does to the slot. -/
theorem slotStep_startStep {pool : Bool} {pc : StartPc} (h : startStep pool env s pc = some move) :
    SlotStep s.slot pc.role move.shared.slot move.task.role := by
  cases pc with
  | tryStart =>
    rw [startStep] at h
    split at h
    · cases h
      exact .startRefused
    · next hclear =>
      cases h
      exact .startAcquires (Bool.eq_false_iff.mpr hclear)
  | loadStop =>
    cases h
    rcases hstop : s.stopInProgress with _ | _
    · exact .seesNoStop hstop
    · exact .seesStop
  | checkRecording =>
    cases h
    rcases hrecording : s.isRecording with _ | _
    · refine .seesNoRecording fun m hm => ?_
      have hmanager : s.manager = some m := hm
      rw [Service.isRecording, hmanager] at hrecording
      exact hrecording
    · exact .seesRecording
  | emitStarting => cases h; exact .stays
  | validate =>
    cases h
    rcases env.ok with _ | _
    · exact .givesUp
    · exact .stays
  | create =>
    cases h
    show SlotStep s.slot .startPrepares
      { (s.update s.nextSession fun _ => .new pool).slot with nextSession := s.nextSession + 1 }
      (.startOwns s.nextSession)
    rw [Service.slot_update]
    exact .creates
  | beginRecording m =>
    cases h
    rw [Service.slot_update]
    exact .begins
  | startPipeline m =>
    rw [startStep] at h
    split at h
    · cases h
      rw [Service.slot_update_same (by rfl)]
      exact .stays
    · cases h
      exact .aborts
  | startStreams m =>
    cases h
    rcases env.ok with _ | _
    · exact .aborts
    · exact .stays
  | abortStart m =>
    cases h
    rw [Service.slot_update]
    exact .undoes
  | setMeetingInfo m =>
    cases h
    rcases pool with _ | _
    · exact .stays
    · exact .stays
  | createRow m =>
    rw [startStep] at h
    split at h
    · cases h
      rw [Service.slot_update_same (by rfl)]
      exact .stays
    · cases h
      exact .stays
  | startWriter m => cases h; exact .stays
  | store m =>
    rw [startStep, waitFor] at h
    split at h
    · cases h
      rw [Service.slot_storeManager]
      exact .stores
    · cases h
  | initDiarizer m =>
    rw [startStep] at h
    split at h
    · cases h
      exact .stays
    · cases h
      exact .stays
  | spawnWorker m =>
    cases h
    rw [Service.slot_update_same (by rfl)]
    exact .stays
  | storeTask m => cases h; exact .stays
  | subscribe m => cases h; exact .stays
  | emitStarted =>
    cases h
    rcases env.ok with _ | _
    · exact .stays
    · exact .stays
  | emitRecording => cases h; exact .stays
  | emitIdle created =>
    cases h
    rcases created with _ | m
    · exact .nothingUndone
    · exact .stays
  | dropManager m =>
    rw [startStep, waitFor] at h
    split at h
    · cases h
      rw [Service.slot_dropManager]
      exact .undone
    · cases h
  | release => cases h; exact .startReleases

/-- What a stop does to the slot. -/
theorem slotStep_stopStep {call : StopCall} {pc : StopPc} (h : stopStep call env s pc = some move) :
    SlotStep s.slot pc.role move.shared.slot move.task.role := by
  cases pc with
  | checkManager =>
    cases h
    rcases s.manager with _ | m
    · exact .stays
    · exact .finds
  | loadStop =>
    cases h
    rcases s.stopInProgress with _ | _
    · exact .findsNothing
    · exact .finds
  | tryStop =>
    rw [stopStep] at h
    split at h
    · cases h
      exact .stopRefused
    · next hclear =>
      cases h
      exact .stopAcquires (Bool.eq_false_iff.mpr hclear)
  | readPhase => cases h; exact .stays
  | readMeeting => cases h; exact .stays
  | emitStopping => cases h; exact .stays
  | take =>
    cases h
    rcases hmanager : s.manager with _ | m
    · exact .takesNothing hmanager
    · exact .takes hmanager
  | stopRecording m =>
    cases h
    rw [Service.slot_update]
    exact .silences
  | stopStreams m =>
    rw [stopStep, waitFor] at h
    split at h
    · cases h
      rw [Service.slot_update_same (by rfl)]
      exact .stays
    · cases h
  | cleanup m =>
    rw [stopStep, waitFor] at h
    split at h
    · cases h
      rw [Service.slot_update]
      exact .silences
    · cases h
  | replay m =>
    cases h
    show SlotStep s.slot (.stopCarries m) (s.update m fun session =>
      { session with segments := session.segments ++ s.pending }).slot (.stopCarries m)
    rw [Service.slot_update_same (by rfl)]
    exact .stays
  | putBack m =>
    rw [stopStep, waitFor] at h
    split at h
    · cases h
      rw [Service.slot_storeManager]
      exact .putsBack
    · cases h
  | emitFinalising => cases h; exact .stays
  | takeTask =>
    cases h
    rcases s.transcriptionTask with _ | m
    · exact .stays
    · exact .stays
  | drain m =>
    rw [stopStep] at h
    split at h
    · rw [waitFor] at h
      split at h
      · cases h
        exact .stays
      · cases h
    · cases h
      rw [Service.slot_update_same (by rfl)]
      exact .stays
  | unsubscribe => cases h; exact .stays
  | takeWriter => cases h; exact .stays
  | finalTake => cases h; exact .takesAll
  | save taken =>
    rcases taken with _ | m
    · cases h
      exact .savesNothing
    · rw [stopStep, waitFor] at h
      split at h
      · cases h
        rw [Service.slot_dropManager]
        exact .saves
      · cases h
  | finaliseRow =>
    rw [stopStep] at h
    split at h
    · split at h
      · cases h
        rw [Service.slot_update_same (by rfl)]
        exact .stays
      · cases h
        exact .stays
    · cases h
      exact .stays
  | emitStopped =>
    cases h
    rcases env.ok with _ | _
    · exact .stays
    · exact .stays
  | emitIdle => cases h; exact .stays
  | release => cases h; exact .stopReleases

/-- A pause or a resume changes whether the recording is paused, or finds none that it could pause
or resume. -/
theorem toggleStep_cases {resume : Bool} (h : toggleStep resume env s .toggle = some move) :
    (move = ⟨s, .finished, none⟩ ∧ ∀ m, s.manager = some m →
      ((s.sessions m).state.isRecording, (s.sessions m).state.isPaused) ≠ (true, resume)) ∨
    ∃ m, s.manager = some m ∧ (s.sessions m).state.isRecording = true ∧
      (s.sessions m).state.isPaused = resume ∧
      move = ⟨s.update m fun session => { session with
        state := { (s.sessions m).state with isPaused := !resume } },
        .toggle resume .emitEvent, none⟩ := by
  rw [toggleStep] at h
  split at h
  · next hnone =>
    cases h
    exact .inl ⟨rfl, fun m hm => by rw [hnone] at hm; cases hm⟩
  next m hm =>
  simp only at h
  split at h
  · next hfailed =>
    cases h
    refine .inl ⟨rfl, fun m' hm' => ?_⟩
    obtain rfl := Option.some.inj (hm.symm.trans hm')
    exact RecordingState.of_not_toggle hfailed
  · next state hstate =>
    cases h
    obtain ⟨hrecords, hpaused, rfl⟩ := RecordingState.of_toggle hstate
    exact .inr ⟨m, hm, hrecords, hpaused, rfl⟩

/-- A pause or a resume leaves the slot. -/
theorem slot_toggleStep {resume : Bool} {pc : TogglePc} (h : toggleStep resume env s pc = some move) :
    move.shared.slot = s.slot ∧ move.task.role = .bystander := by
  cases pc with
  | checkRecording =>
    cases h
    rcases s.isRecording with _ | _
    · exact ⟨rfl, rfl⟩
    · exact ⟨rfl, rfl⟩
  | toggle =>
    rcases toggleStep_cases h with ⟨rfl, -⟩ | ⟨m, -, -, -, rfl⟩
    · exact ⟨rfl, rfl⟩
    · -- neither a pause nor a resume changes whether the session records
      exact ⟨Service.slot_update_same rfl, rfl⟩
  | emitEvent =>
    cases h
    rcases env.ok with _ | _
    · exact ⟨rfl, rfl⟩
    · exact ⟨rfl, rfl⟩
  | emitPhase => cases h; exact ⟨rfl, rfl⟩

theorem slot_reportDone {m : SessionId} (h : reportDone s m = some move) :
    move.shared.slot = s.slot ∧ move.task.role = .bystander := by
  cases h
  exact ⟨Service.slot_update_same rfl, rfl⟩

theorem slot_reportCounted {m : SessionId} {error : AudioError} {count recoverable : ℕ}
    (h : reportCounted s m error count recoverable = some move) :
    move.shared.slot = s.slot ∧ move.task.role = .bystander := by
  rw [reportCounted] at h
  split at h
  · cases h
    exact ⟨rfl, rfl⟩
  · exact slot_reportDone h

/-- A report leaves the slot. -/
theorem slot_reportStep {m : SessionId} {error : AudioError} {pc : ReportPc}
    (h : reportStep m error env s pc = some move) :
    move.shared.slot = s.slot ∧ move.task.role = .bystander := by
  cases pc with
  | count =>
    rw [reportStep] at h
    split at h
    · cases h
      exact ⟨Service.slot_update_same rfl, rfl⟩
    · obtain ⟨hslot, hrole⟩ := slot_reportCounted h
      exact ⟨hslot.trans (Service.slot_update_same rfl), hrole⟩
  | countRecoverable count =>
    rw [reportStep] at h
    obtain ⟨hslot, hrole⟩ := slot_reportCounted h
    exact ⟨hslot.trans (Service.slot_update_same rfl), hrole⟩
  | swap =>
    rw [reportStep] at h
    split at h
    · obtain ⟨hslot, hrole⟩ := slot_reportDone h
      exact ⟨hslot.trans (Service.slot_update_same rfl), hrole⟩
    · cases h
      exact ⟨Service.slot_update_same rfl, rfl⟩
  | lockCallback =>
    rw [reportStep, waitFor] at h
    split at h
    · split at h
      · cases h
        exact ⟨Service.slot_update_same rfl, rfl⟩
      · exact slot_reportDone h
    · cases h
  | setMessage => cases h; exact ⟨rfl, rfl⟩
  | emitError => cases h; exact ⟨rfl, rfl⟩
  | spawnStop =>
    cases h
    exact ⟨Service.slot_update_same rfl, rfl⟩

/-- The worker leaves the slot. -/
theorem slot_workerStep {m : SessionId} {pc : WorkerPc} (h : workerStep m env s pc = some move) :
    move.shared.slot = s.slot ∧ move.task.role = .bystander := by
  cases pc with
  | idle =>
    rw [workerStep] at h
    split at h
    · cases h
      exact ⟨Service.slot_update_same rfl, rfl⟩
    · cases h
      exact ⟨Service.slot_update_same rfl, rfl⟩
  | enqueue c segment =>
    cases h
    exact ⟨rfl, rfl⟩
  | deliver segment =>
    rw [workerStep] at h
    split at h
    · cases h
      exact ⟨Service.slot_update_same rfl, rfl⟩
    · cases h
      exact ⟨rfl, rfl⟩

/-- **Inversion.** Every step of the service is a step of the slot. -/
theorem slotStep_of_step {a : ServiceTask} (h : step env s a = some move) :
    SlotStep s.slot a.role move.shared.slot move.task.role := by
  have hstays : move.shared.slot = s.slot ∧ move.task.role = .bystander →
      SlotStep s.slot .bystander move.shared.slot move.task.role := by
    rintro ⟨hslot, hrole⟩
    rw [hslot, hrole]
    exact .stays
  cases a with
  | free => cases h
  | start pool pc => exact slotStep_startStep h
  | stop call pc => exact slotStep_stopStep h
  | toggle resume pc => exact hstays (slot_toggleStep h)
  | report m error pc => exact hstays (slot_reportStep h)
  | worker m pc => exact hstays (slot_workerStep h)
  | finished => cases h

/-- A call leaves the slot, and begins with a start or a stop at most. -/
theorem slot_begins {k : ServiceCall} {s' : Service} {a : ServiceTask}
    (h : begins k s = some (s', a)) :
    s'.slot = s.slot ∧ (a.role = .startTries ∨ a.role = .stopLooks ∨ a.role = .bystander) := by
  cases k with
  | start pool => cases h; exact ⟨rfl, .inl rfl⟩
  | stop pool => cases h; exact ⟨rfl, .inr (.inl rfl)⟩
  | pause => cases h; exact ⟨rfl, .inr (.inr rfl)⟩
  | resume => cases h; exact ⟨rfl, .inr (.inr rfl)⟩
  | report m error =>
    rw [begins] at h
    split at h
    · cases h
      exact ⟨Service.slot_update_same rfl, .inr (.inr rfl)⟩
    · cases h

/-- A start spawns the worker of its session, and a fatal error a stop. -/
theorem spawned_cases {a child : ServiceTask} (h : step env s a = some move)
    (hspawned : move.spawned = some child) :
    (∃ pool m, a = .start pool (.spawnWorker m) ∧ child = .worker m .idle) ∨
      ∃ m error pool, a = .report m error .spawnStop ∧
        child = .stop ⟨pool, false, none⟩ .checkManager := by
  cases a with
  | free => cases h
  | start pool pc =>
    cases pc with
    | spawnWorker m => cases h; cases hspawned; exact .inl ⟨pool, m, rfl, rfl⟩
    | emitIdle created => cases h; cases hspawned
    | _ => grind [step, startStep, goTo, waitFor]
  | stop call pc =>
    cases pc with
    | save taken => rcases taken with _ | m <;> grind [step, stopStep, goTo, waitFor]
    | _ => grind [step, stopStep, goTo, waitFor]
  | toggle resume pc => cases pc <;> grind [step, toggleStep, goTo]
  | report m error pc =>
    cases pc with
    | spawnStop => cases h; cases hspawned; exact .inr ⟨m, error, _, rfl, rfl⟩
    | _ => grind [step, reportStep, reportCounted, reportDone, goTo, waitFor]
  | worker m pc => cases pc <;> grind [step, workerStep, goTo]
  | finished => cases h

/-- What is spawned is a stop or a worker. -/
theorem role_spawned {a child : ServiceTask} (h : step env s a = some move)
    (hspawned : move.spawned = some child) : child.role = .stopLooks ∨ child.role = .bystander := by
  rcases spawned_cases h hspawned with ⟨pool, m, -, rfl⟩ | ⟨m, error, pool, -, rfl⟩
  · exact .inr rfl
  · exact .inl rfl

end RecordingService

end MeetilyLocal
