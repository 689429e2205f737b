import MeetilyLocal.Recording.FatalErrors

/-!
# The flows between the phases

What the phase follows: whether the slot has a manager, and whether that one records and is paused
(`PhaseView`). A task is in a flow from its first change of phase to its last (`Flow`), and
`PhaseStep` lists what a step in a flow can do to what is seen.
-/

namespace MeetilyLocal

/-- What the phase should show. -/
structure PhaseView : Type where
  /-- the manager in the slot, by whether it records and whether it is paused -/
  live : Option (Bool × Bool)
  /-- the phase -/
  phase : RecordingPhase
  /-- the number of changes of phase -/
  seq : ℕ

/-- The phase is changed. -/
def PhaseView.emit (v : PhaseView) (phase : RecordingPhase) : PhaseView :=
  { v with phase, seq := v.seq + 1 }

/-- A session, by whether it records and whether it is paused. -/
def Service.face (s : Service) (m : SessionId) : Bool × Bool :=
  ((s.sessions m).state.isRecording, (s.sessions m).state.isPaused)

/-- What is seen of the service. -/
def Service.view (s : Service) : PhaseView := ⟨s.manager.map s.face, s.phase.phase, s.phase.seq⟩

/-- Where a task is between its changes of phase. -/
inductive Flow : Type where
  /-- before the first or after the last -/
  | rest : Flow
  /-- a start that has got past `begin_start_phase` -/
  | permitted : Flow
  /-- a start before it stores its manager -/
  | starting : Flow
  /-- a start after that -/
  | started : Flow
  /-- a stop that flushes -/
  | stopping : Flow
  /-- a stop that drains -/
  | finalising : Flow
  /-- a stop that has taken the manager out for good -/
  | saving : Flow
  /-- a pause, or a resume -/
  | toggled : Bool → Flow
  deriving DecidableEq

/-- The task has changed the phase, or what it shows, and has still to change it. -/
def Flow.underWay : Flow → Bool
  | .rest | .permitted => false
  | _ => true

/-- The flow of a start. -/
def StartPc.flow : StartPc → Flow
  | .emitStarting => .permitted
  | .validate | .create | .beginRecording _ | .startPipeline _ | .startStreams _ | .abortStart _
  | .setMeetingInfo _ | .createRow _ | .startWriter _ | .store _ | .emitIdle _ => .starting
  | .initDiarizer _ | .spawnWorker _ | .storeTask _ | .subscribe _ | .emitStarted
  | .emitRecording => .started
  | _ => .rest

/-- The flow of a stop. -/
def StopPc.flow : StopPc → Flow
  | .take | .stopRecording _ | .stopStreams _ | .cleanup _ | .replay _ | .putBack _
  | .emitFinalising => .stopping
  | .takeTask | .drain _ | .unsubscribe | .takeWriter | .finalTake => .finalising
  | .save _ | .finaliseRow | .emitStopped | .emitIdle => .saving
  | _ => .rest

/-- The flow of a pause or a resume. -/
def TogglePc.flow (resume : Bool) : TogglePc → Flow
  | .emitEvent | .emitPhase => .toggled resume
  | _ => .rest

/-- The flow of a task. -/
def ServiceTask.flow : ServiceTask → Flow
  | .start _ pc => pc.flow
  | .stop _ pc => pc.flow
  | .toggle resume pc => pc.flow resume
  | _ => .rest

/-- The phase that a pause or a resume changes to. -/
def togglePhase (resume : Bool) : RecordingPhase := if resume then .recording else .paused

/-- What a step in a flow can do to what is seen; it may begin a flow, or be a fatal error. -/
inductive PhaseStep : Bool → PhaseView → Flow → PhaseView → Flow → Prop where
  /-- nothing -/
  | stays {v : PhaseView} {f : Flow} : PhaseStep false v f v f
  /-- a start gets past `begin_start_phase` -/
  | permits {v : PhaseView} : (∀ paused, v.live ≠ some (true, paused)) →
      PhaseStep false v .rest v .permitted
  /-- it changes to `Starting` -/
  | startBegins {v : PhaseView} : PhaseStep true v .permitted (v.emit .starting) .starting
  /-- it stores its manager, which records -/
  | stores {v : PhaseView} :
      PhaseStep false v .starting { v with live := some (true, false) } .started
  /-- it has failed, and changes to `Idle` -/
  | startFails {v : PhaseView} : PhaseStep false v .starting (v.emit .idle) .rest
  /-- it changes to `Recording` -/
  | startEnds {v : PhaseView} : PhaseStep false v .started (v.emit .recording) .rest
  /-- a stop changes to `Stopping` -/
  | stopBegins {v : PhaseView} : v.live.isSome = true →
      PhaseStep true v .rest (v.emit .stopping) .stopping
  /-- it takes the manager out -/
  | takes {v : PhaseView} : PhaseStep false v .stopping { v with live := none } .stopping
  /-- it puts it back, and it does not record -/
  | putsBack {v : PhaseView} {paused : Bool} :
      PhaseStep false v .stopping { v with live := some (false, paused) } .stopping
  /-- it changes to `Finalising` -/
  | finalises {v : PhaseView} : PhaseStep false v .stopping (v.emit .finalising) .finalising
  /-- it takes the manager out for good -/
  | takesAll {v : PhaseView} : PhaseStep false v .finalising { v with live := none } .saving
  /-- it changes to `Idle` -/
  | stopEnds {v : PhaseView} : PhaseStep false v .saving (v.emit .idle) .rest
  /-- a recording is paused or resumed -/
  | toggles {v : PhaseView} {resume : Bool} : v.live = some (true, resume) → v.phase ≠ .error →
      PhaseStep true v .rest { v with live := some (true, !resume) } (.toggled resume)
  /-- the phase follows -/
  | toggleEnds {v : PhaseView} {resume : Bool} :
      PhaseStep false v (.toggled resume) (v.emit (togglePhase resume)) .rest
  /-- a fatal error -/
  | errs {v : PhaseView} : v.live.isSome = true → PhaseStep true v .rest (v.emit .error) .rest

/-! ## What is seen of a step -/

namespace Service

variable {s : Service} {m : SessionId} {f : Session → Session}

/-- What happens to a session that is not in the slot is not seen. -/
theorem view_update_of_ne (h : s.manager ≠ some m) : (s.update m f).view = s.view := by
  rcases hmanager : s.manager with _ | other
  · simp [view, update, hmanager]
  · have hne : other ≠ m := by
      rintro rfl
      exact h hmanager
    simp [view, update, face, hmanager, hne]

/-- Nor is a change that leaves what is seen of it. -/
theorem view_update_same
    (h : (f (s.sessions m)).state.isRecording = (s.sessions m).state.isRecording ∧
      (f (s.sessions m)).state.isPaused = (s.sessions m).state.isPaused) :
    (s.update m f).view = s.view := by
  rcases hmanager : s.manager with _ | other
  · simp [view, update, hmanager]
  · rcases eq_or_ne other m with rfl | hne
    · simp [view, update, face, hmanager, h.1, h.2]
    · simp [view, update, face, hmanager, hne]

/-- A manager that was not in the slot is stored. -/
theorem view_storeManager (h : s.manager ≠ some m) :
    (s.storeManager m).view = { s.view with live := some (s.face m) } := by
  rcases hmanager : s.manager with _ | old
  · simp [view, storeManager, hmanager, face]
  · have hne : m ≠ old := by
      rintro rfl
      exact h hmanager
    simp [view, storeManager, dropManager, update, hmanager, face, hne]

end Service

namespace RecordingService

variable {env : Env} {s : Service} {move : Tasks.Move Service ServiceTask}

/-! ## Orderly runs -/

/-- A task that is about to begin a flow, or to report a fatal error. -/
def beginsFlow (s : Service) : ServiceTask → Bool
  | .start _ .emitStarting => true
  | .stop _ .emitStopping => true
  | .toggle resume .toggle => s.manager.map s.face == some (true, resume)
  | .report _ _ .emitError => true
  | _ => false

/-- A task that is about to emit an event, without which it does not go on to its last phase. -/
def tells : ServiceTask → Bool
  | .start _ .emitStarted => true
  | .stop _ .emitStopped => true
  | .toggle _ .emitEvent => true
  | _ => false

/-- A stop or a fatal error that is about to change the phase. -/
def needsManager : ServiceTask → Bool
  | .stop _ .emitStopping => true
  | .report _ _ .emitError => true
  | _ => false

/-- A pause or a resume at its manager. -/
def atToggle : ServiceTask → Bool
  | .toggle _ .toggle => true
  | _ => false

/-- Events are emitted; a stop or a fatal error finds a manager; nothing is paused or resumed after
a fatal error; and no flow begins, and no fatal error is reported, while another task is under
way. -/
def orderly : Tasks.Discipline Service ServiceTask Env ServiceCall where
  call _ _ := True
  callBeside _ _ := True
  step env s a := (tells a = true → env.ok = true) ∧
    (needsManager a = true → s.manager.isSome = true) ∧
    (atToggle a = true → beginsFlow s a = true → s.phase.phase ≠ .error)
  stepBeside _ s a b := beginsFlow s a = true → b.flow.underWay = false

/-! ## What a step does in its flow -/

/-- A new session is not paused, and one that a start has begun records. -/
def fresh : Tasks.Assertions Service ServiceTask where
  shared _ := True
  own s a := (∀ m, a.role = .startOwns m → (s.sessions m).state.isPaused = false) ∧
    ∀ m, a.role = .startRecords m → s.face m = (true, false)
  pair _ _ := True

/-- A step inside a flow that is not seen. -/
theorem phaseStep_stays {a a' : ServiceTask} {s' : Service} (hbegins : beginsFlow s a = false)
    (hflow : a'.flow = a.flow) (hview : s'.view = s.view) :
    PhaseStep (beginsFlow s a) s.view a.flow s'.view a'.flow := by
  rw [hbegins, hflow, hview]
  exact .stays

/-- What a start does. -/
theorem phaseStep_startStep {pool : Bool} {pc : StartPc} (h : startStep pool env s pc = some move)
    (hknown : s.slot.Known) (hallowed : orderly.step env s (.start pool pc))
    (howned : pc.role.Owned s.slot) (hfresh : fresh.own s (.start pool pc)) :
    PhaseStep (beginsFlow s (.start pool pc)) s.view pc.flow move.shared.view move.task.flow := by
  cases pc with
  | tryStart =>
    rw [startStep] at h
    split at h <;> cases h <;> exact .stays
  | loadStop =>
    cases h
    rcases s.stopInProgress with _ | _ <;> exact .stays
  | checkRecording =>
    cases h
    rcases hrecording : s.isRecording with _ | _
    · refine .permits fun paused hlive => ?_
      obtain ⟨m, hm, hface⟩ := Option.map_eq_some_iff.mp hlive
      rw [Service.isRecording, hm] at hrecording
      exact absurd ((congrArg Prod.fst hface).symm.trans hrecording) (by simp)
    · exact .stays
  | emitStarting => cases h; exact .startBegins
  | validate =>
    cases h
    rcases env.ok with _ | _ <;> exact .stays
  | create =>
    cases h
    -- the new session is in the slot of nobody
    have hnew : s.manager ≠ some s.nextSession := fun hin => Nat.lt_irrefl _ (hknown _ hin)
    exact phaseStep_stays rfl rfl (Service.view_update_of_ne (f := fun _ => .new pool) hnew)
  | beginRecording m =>
    cases h
    refine phaseStep_stays rfl rfl (Service.view_update_of_ne ?_)
    exact (howned m rfl).2
  | startPipeline m =>
    rw [startStep] at h
    split at h <;> cases h
    · refine phaseStep_stays rfl rfl (Service.view_update_of_ne ?_)
      exact (howned m rfl).2
    · exact .stays
  | startStreams m =>
    cases h
    rcases env.ok with _ | _ <;> exact .stays
  | abortStart m =>
    cases h
    refine phaseStep_stays rfl rfl (Service.view_update_of_ne ?_)
    exact (howned m rfl).2
  | setMeetingInfo m =>
    cases h
    rcases pool with _ | _ <;> exact .stays
  | createRow m =>
    rw [startStep] at h
    split at h <;> cases h
    · refine phaseStep_stays rfl rfl (Service.view_update_of_ne ?_)
      exact (howned m rfl).2
    · exact .stays
  | startWriter m => cases h; exact .stays
  | store m =>
    obtain ⟨-, h⟩ := of_waitFor h
    cases h
    show PhaseStep _ s.view _ (s.storeManager m).view _
    rw [Service.view_storeManager (howned m rfl).2, hfresh.2 m rfl]
    exact .stores
  | initDiarizer m =>
    rw [startStep] at h
    split at h <;> cases h <;> exact .stays
  | spawnWorker m =>
    cases h
    exact phaseStep_stays rfl rfl (Service.view_update_same ⟨rfl, rfl⟩)
  | storeTask m => cases h; exact .stays
  | subscribe m => cases h; exact .stays
  | emitStarted =>
    cases h
    rw [hallowed.1 rfl]
    exact .stays
  | emitRecording => cases h; exact .startEnds
  | emitIdle created =>
    cases h
    rcases created with _ | m <;> exact .startFails
  | dropManager m =>
    obtain ⟨-, h⟩ := of_waitFor h
    cases h
    refine phaseStep_stays rfl rfl (Service.view_update_of_ne ?_)
    exact (howned m rfl).2
  | release => cases h; exact .stays

/-- What a stop does. -/
theorem phaseStep_stopStep {call : StopCall} {pc : StopPc} (h : stopStep call env s pc = some move)
    (hallowed : orderly.step env s (.stop call pc)) (howned : pc.role.Owned s.slot)
    (hquiet : settled.own s (.stop call pc)) :
    PhaseStep (beginsFlow s (.stop call pc)) s.view pc.flow move.shared.view move.task.flow := by
  cases pc with
  | checkManager =>
    cases h
    rcases s.manager.isSome with _ | _ <;> exact .stays
  | loadStop =>
    cases h
    rcases s.stopInProgress with _ | _ <;> exact .stays
  | tryStop =>
    rw [stopStep] at h
    split at h <;> cases h <;> exact .stays
  | readPhase => cases h; exact .stays
  | readMeeting => cases h; exact .stays
  | emitStopping =>
    cases h
    refine .stopBegins ?_
    rw [Service.view, Option.isSome_map]
    exact hallowed.2.1 rfl
  | take =>
    cases h
    rcases s.manager with _ | m <;> exact .takes
  | stopRecording m =>
    cases h
    exact phaseStep_stays rfl rfl (Service.view_update_of_ne (howned m rfl).2)
  | stopStreams m =>
    obtain ⟨-, h⟩ := of_waitFor h
    cases h
    exact phaseStep_stays rfl rfl (Service.view_update_of_ne (howned m rfl).2)
  | cleanup m =>
    obtain ⟨-, h⟩ := of_waitFor h
    cases h
    exact phaseStep_stays rfl rfl (Service.view_update_of_ne (howned m rfl).2)
  | replay m =>
    cases h
    exact phaseStep_stays rfl rfl (Service.view_update_of_ne (s := s) (m := m)
      (f := fun session => { session with segments := session.segments ++ s.pending })
      (howned m rfl).2)
  | putBack m =>
    obtain ⟨-, h⟩ := of_waitFor h
    cases h
    have hface : s.face m = (false, (s.sessions m).state.isPaused) :=
      Prod.ext (hquiet.2 m rfl) rfl
    show PhaseStep _ s.view _ (s.storeManager m).view _
    rw [Service.view_storeManager (howned m rfl).2, hface]
    exact .putsBack
  | emitFinalising => cases h; exact .finalises
  | takeTask =>
    cases h
    rcases s.transcriptionTask with _ | m <;> exact .stays
  | drain m =>
    rw [stopStep] at h
    split at h
    · obtain ⟨-, h⟩ := of_waitFor h
      cases h
      exact .stays
    · cases h
      exact phaseStep_stays rfl rfl (Service.view_update_same ⟨rfl, rfl⟩)
  | unsubscribe => cases h; exact .stays
  | takeWriter => cases h; exact .stays
  | finalTake => cases h; exact .takesAll
  | save taken =>
    rcases taken with _ | m
    · cases h
      exact .stays
    · obtain ⟨-, h⟩ := of_waitFor h
      cases h
      exact phaseStep_stays rfl rfl (Service.view_update_of_ne (howned m rfl).2)
  | finaliseRow =>
    rw [stopStep] at h
    split at h
    · split at h <;> cases h
      · exact phaseStep_stays rfl rfl (Service.view_update_same ⟨rfl, rfl⟩)
      · exact .stays
    · cases h
      exact .stays
  | emitStopped =>
    cases h
    rw [hallowed.1 rfl]
    exact .stays
  | emitIdle => cases h; exact .stopEnds
  | release => cases h; exact .stays

/-- What is seen of a recording that was paused or resumed. -/
theorem Service.view_toggled {m : SessionId} {resume : Bool} (hmanager : s.manager = some m)
    (hrecords : (s.sessions m).state.isRecording = true) :
    (s.update m fun session => { session with
      state := { (s.sessions m).state with isPaused := !resume } }).view =
      { s.view with live := some (true, !resume) } := by
  simp [Service.view, Service.update, Service.face, hmanager, hrecords]

/-- What a pause or a resume does. -/
theorem phaseStep_toggleStep {resume : Bool} {pc : TogglePc}
    (h : toggleStep resume env s pc = some move)
    (hallowed : orderly.step env s (.toggle resume pc)) :
    PhaseStep (beginsFlow s (.toggle resume pc)) s.view (pc.flow resume) move.shared.view
      move.task.flow := by
  cases pc with
  | checkRecording =>
    cases h
    rcases s.isRecording with _ | _ <;> exact .stays
  | toggle =>
    rcases toggleStep_cases h with ⟨rfl, hnot⟩ | ⟨m, hmanager, hrecords, hpaused, rfl⟩
    · refine phaseStep_stays ?_ rfl rfl
      rcases hmanager : s.manager with _ | m
      · simp [beginsFlow, hmanager]
      · have hne : s.face m ≠ (true, resume) := hnot m hmanager
        simp [beginsFlow, hmanager, hne]
    · have hlive : s.view.live = some (s.face m) := congrArg (Option.map s.face) hmanager
      have hface : s.face m = (true, resume) := Prod.ext hrecords hpaused
      have hbegins : beginsFlow s (.toggle resume .toggle) = true := by
        simp [beginsFlow, hmanager, hface]
      rw [hbegins]
      show PhaseStep true s.view .rest (Service.view _) (.toggled resume)
      rw [Service.view_toggled hmanager hrecords]
      exact .toggles (hlive.trans (congrArg some hface)) (hallowed.2.2 rfl hbegins)
  | emitEvent =>
    cases h
    rw [hallowed.1 rfl]
    exact .stays
  | emitPhase =>
    cases h
    rcases resume with _ | _ <;> exact .toggleEnds

/-- A report that is done is not seen. -/
theorem view_reportDone {m : SessionId} (h : reportDone s m = some move) :
    move.shared.view = s.view ∧ move.task.flow = .rest := by
  cases h
  exact ⟨Service.view_update_same ⟨rfl, rfl⟩, rfl⟩

theorem view_reportCounted {m : SessionId} {error : AudioError} {count recoverable : ℕ}
    (h : reportCounted s m error count recoverable = some move) :
    move.shared.view = s.view ∧ move.task.flow = .rest := by
  rw [reportCounted] at h
  split at h
  · cases h
    exact ⟨rfl, rfl⟩
  · exact view_reportDone h

/-- What a report does. -/
theorem phaseStep_reportStep {m : SessionId} {error : AudioError} {pc : ReportPc}
    (h : reportStep m error env s pc = some move)
    (hallowed : orderly.step env s (.report m error pc)) :
    PhaseStep (beginsFlow s (.report m error pc)) s.view .rest move.shared.view move.task.flow := by
  cases pc with
  | count =>
    rw [reportStep] at h
    split at h
    · cases h
      exact phaseStep_stays (a := .report m error .count) rfl rfl
        (Service.view_update_same ⟨rfl, rfl⟩)
    · obtain ⟨hview, hflow⟩ := view_reportCounted h
      exact phaseStep_stays (a := .report m error .count) rfl hflow
        (hview.trans (Service.view_update_same ⟨rfl, rfl⟩))
  | countRecoverable count =>
    obtain ⟨hview, hflow⟩ := view_reportCounted h
    exact phaseStep_stays (a := .report m error (.countRecoverable count)) rfl hflow
      (hview.trans (Service.view_update_same ⟨rfl, rfl⟩))
  | swap =>
    rw [reportStep] at h
    split at h
    · obtain ⟨hview, hflow⟩ := view_reportDone h
      exact phaseStep_stays (a := .report m error .swap) rfl hflow
        (hview.trans (Service.view_update_same ⟨rfl, rfl⟩))
    · cases h
      exact phaseStep_stays (a := .report m error .swap) rfl rfl
        (Service.view_update_same ⟨rfl, rfl⟩)
  | lockCallback =>
    obtain ⟨-, h⟩ := of_waitFor h
    split at h
    · cases h
      exact phaseStep_stays (a := .report m error .lockCallback) rfl rfl
        (Service.view_update_same ⟨rfl, rfl⟩)
    · obtain ⟨hview, hflow⟩ := view_reportDone h
      exact phaseStep_stays (a := .report m error .lockCallback) rfl hflow hview
  | setMessage => cases h; exact .stays
  | emitError =>
    cases h
    refine .errs ?_
    rw [Service.view, Option.isSome_map]
    exact hallowed.2.1 rfl
  | spawnStop =>
    cases h
    exact phaseStep_stays (a := .report m error .spawnStop) rfl rfl
      (Service.view_update_same ⟨rfl, rfl⟩)

/-- A worker is not seen. -/
theorem view_workerStep {m : SessionId} {pc : WorkerPc} (h : workerStep m env s pc = some move) :
    move.shared.view = s.view ∧ move.task.flow = .rest := by
  cases pc with
  | idle =>
    rw [workerStep] at h
    split at h
    · cases h
      rcases s.subscriber with _ | c <;> exact ⟨Service.view_update_same ⟨rfl, rfl⟩, rfl⟩
    · cases h
      exact ⟨Service.view_update_same ⟨rfl, rfl⟩, rfl⟩
  | enqueue c segment => cases h; exact ⟨rfl, rfl⟩
  | deliver segment =>
    rw [workerStep] at h
    split at h
    · cases h
      exact ⟨Service.view_update_same ⟨rfl, rfl⟩, rfl⟩
    · cases h
      exact ⟨rfl, rfl⟩

/-- **Inversion.** What a step does to what is seen. -/
theorem phaseStep_of_step {a : ServiceTask} (h : step env s a = some move)
    (hallowed : orderly.step env s a) (hknown : s.slot.Known) (howned : a.role.Owned s.slot)
    (hquiet : settled.own s a) (hfresh : fresh.own s a) :
    PhaseStep (beginsFlow s a) s.view a.flow move.shared.view move.task.flow := by
  cases a with
  | free => cases h
  | start pool pc => exact phaseStep_startStep h hknown hallowed howned hfresh
  | stop call pc => exact phaseStep_stopStep h hallowed howned hquiet
  | toggle resume pc => exact phaseStep_toggleStep h hallowed
  | report m error pc => exact phaseStep_reportStep h hallowed
  | worker m pc =>
    obtain ⟨hview, hflow⟩ := view_workerStep h
    exact phaseStep_stays (a := .worker m pc) rfl hflow hview
  | finished => cases h

end RecordingService

end MeetilyLocal
