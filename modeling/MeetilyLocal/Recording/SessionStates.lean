import MeetilyLocal.Recording.ManagerOwnership

/-!
# What happens to the state of a session

A step of the service changes the recording state of one session at most, and only in the ways that
`StateChange` lists; the tasks that do so are those that have the manager, or find it in the slot,
and the reports of the session's errors.
-/

namespace MeetilyLocal

/-- The session that a task is about to stop, with `RecordingState::stop_recording`. -/
def ServiceTask.silences : ServiceTask → Option SessionId
  | .start _ (.abortStart m) => some m
  | .stop _ (.stopRecording m) => some m
  | _ => none

/-- What a step from one task to the next can do to the state of a session. -/
inductive StateChange (s : Service) (a a' : ServiceTask) (m : SessionId) (x : RecordingState) :
    RecordingState → Prop where
  /-- nothing -/
  | stays : StateChange s a a' m x x
  /-- an error is counted -/
  | counts (errorCount recoverableErrorCount : ℕ) :
      StateChange s a a' m x { x with errorCount, recoverableErrorCount }
  /-- a fatal error is noted; the first to do so goes on -/
  | marks (error : AudioError) : a = .report m error .swap →
      (x.errored = false → a' = .report m error .lockCallback) →
      StateChange s a a' m x x.markErrored
  /-- the recording is paused or resumed -/
  | toggles (resume : Bool) : s.manager = some m → a = .toggle resume .toggle →
      a' = .toggle resume .emitEvent → x.isRecording = true → x.isPaused = resume →
      StateChange s a a' m x { x with isPaused := !resume }
  /-- the manager is created -/
  | created : m = s.nextSession → a.role = .startPrepares → a'.role = .startOwns m →
      StateChange s a a' m x (RecordingState.new.setErrorCallback)
  /-- it begins to record -/
  | begun : a.role = .startOwns m → a'.role = .startRecords m →
      StateChange s a a' m x x.startRecording
  /-- it stops recording -/
  | stopped : a.silences = some m → StateChange s a a' m x x.stopRecording
  /-- the task that has the manager cleans it up -/
  | cleaned : a.role.owns = some m → StateChange s a a' m x x.cleanup
  /-- another manager is stored over it -/
  | replaced : s.manager = some m → RecordingService.storesManager a = true →
      StateChange s a a' m x x.cleanup

namespace RecordingService

variable {env : Env} {s : Service} {move : Tasks.Move Service ServiceTask}

/-- The states of all sessions are as they were. -/
def SameStates (s s' : Service) : Prop := ∀ m, (s'.sessions m).state = (s.sessions m).state

theorem SameStates.of_move {s' : Service} {a' : ServiceTask} {spawned : Option ServiceTask}
    (h : some ⟨s', a', spawned⟩ = some move) (hsame : SameStates s s') :
    SameStates s move.shared := by
  cases h
  exact hsame

/-- A change of one session that leaves its state. -/
theorem SameStates.update {m : SessionId} {f : Session → Session}
    (h : (f (s.sessions m)).state = (s.sessions m).state) : SameStates s (s.update m f) := by
  intro other
  rcases eq_or_ne other m with rfl | hne
  · simpa [Service.update] using h
  · simp [Service.update, hne]

/-- What a step does to the states of all sessions. -/
def StatesChange (s : Service) (a a' : ServiceTask) (s' : Service) : Prop :=
  ∀ m, StateChange s a a' m (s.sessions m).state (s'.sessions m).state

/-- A step that waited was ready. -/
theorem of_waitFor {ready : Bool} {result : Option (Tasks.Move Service ServiceTask)}
    (h : waitFor ready result = some move) : ready = true ∧ result = some move := by
  rw [waitFor] at h
  split at h
  · next hready => exact ⟨hready, h⟩
  · cases h

theorem StatesChange.stays {s' : Service} {a a' : ServiceTask} (h : s'.sessions = s.sessions) :
    StatesChange s a a' s' := by
  intro m
  rw [h]
  exact .stays

/-- Only the states count. -/
theorem StatesChange.congr {s' s'' : Service} {a a' : ServiceTask} (hsame : SameStates s' s'')
    (h : StatesChange s a a' s') : StatesChange s a a' s'' := by
  intro m
  rw [hsame m]
  exact h m

/-- A step changes what the state that it ends in differs in. -/
theorem StatesChange.of_move {s' : Service} {a a' : ServiceTask} {spawned : Option ServiceTask}
    (h : some ⟨s', a', spawned⟩ = some move) (hchange : StatesChange s a a' s') :
    StatesChange s a move.task move.shared := by
  cases h
  exact hchange

/-- A change of one session. -/
theorem StatesChange.update {a a' : ServiceTask} {m : SessionId} {f : Session → Session}
    (h : StateChange s a a' m (s.sessions m).state (f (s.sessions m)).state) :
    StatesChange s a a' (s.update m f) := by
  intro other
  rcases eq_or_ne other m with rfl | hne
  · simpa [Service.update] using h
  · simpa [Service.update, hne] using .stays

theorem StatesChange.storeManager {a a' : ServiceTask} {m : SessionId}
    (h : storesManager a = true) : StatesChange s a a' (s.storeManager m) := by
  rw [Service.storeManager]
  split
  · next old hold =>
    have hdrop : StatesChange s a a' (s.dropManager old) := .update (.replaced hold h)
    exact .congr (fun _ => rfl) hdrop
  · exact .stays rfl

/-- What a start does to the state of a session. -/
theorem stateChange_startStep {pool : Bool} {pc : StartPc} (h : startStep pool env s pc = some move) :
    StatesChange s (.start pool pc) move.task move.shared := by
  cases pc with
  | tryStart =>
    rw [startStep] at h
    split at h <;> cases h <;> exact .stays rfl
  | create =>
    exact .of_move h (.congr (fun _ => rfl) (.update (f := fun _ => .new pool) (.created rfl rfl rfl)))
  | beginRecording m =>
    exact .of_move h (.update (.begun rfl rfl))
  | startPipeline m =>
    rw [startStep] at h
    split at h
    · exact .of_move h (.update .stays)
    · exact .of_move h (.stays rfl)
  | abortStart m =>
    exact .of_move h (.update (.stopped rfl))
  | createRow m =>
    rw [startStep] at h
    split at h
    · exact .of_move h (.update .stays)
    · exact .of_move h (.stays rfl)
  | store m =>
    exact .of_move (of_waitFor h).2 (.storeManager rfl)
  | initDiarizer m =>
    rw [startStep] at h
    split at h <;> cases h <;> exact .stays rfl
  | spawnWorker m =>
    exact .of_move h (.update .stays)
  | dropManager m =>
    exact .of_move (of_waitFor h).2 (.update (.cleaned rfl))
  | _ => cases h; exact .stays rfl

/-- What a stop does to the state of a session. -/
theorem stateChange_stopStep {call : StopCall} {pc : StopPc} (h : stopStep call env s pc = some move) :
    StatesChange s (.stop call pc) move.task move.shared := by
  cases pc with
  | tryStop =>
    rw [stopStep] at h
    split at h <;> cases h <;> exact .stays rfl
  | stopRecording m =>
    exact .of_move h (.update (.stopped rfl))
  | stopStreams m =>
    exact .of_move (of_waitFor h).2 (.update .stays)
  | cleanup m =>
    exact .of_move (of_waitFor h).2 (.update (.cleaned rfl))
  | replay m =>
    exact .of_move h (.congr (fun _ => rfl)
      (.update (f := fun session => { session with segments := session.segments ++ s.pending })
        .stays))
  | putBack m =>
    exact .of_move (of_waitFor h).2 (.storeManager rfl)
  | drain m =>
    rw [stopStep] at h
    split at h
    · exact .of_move (of_waitFor h).2 (.stays rfl)
    · exact .of_move h (.update .stays)
  | save taken =>
    rcases taken with _ | m
    · cases h
      exact .stays rfl
    · exact .of_move (of_waitFor h).2 (.update (.cleaned rfl))
  | finaliseRow =>
    rw [stopStep] at h
    split at h
    · split at h
      · exact .of_move h (.update .stays)
      · exact .of_move h (.stays rfl)
    · exact .of_move h (.stays rfl)
  | _ => cases h; exact .stays rfl

/-- What a pause or a resume does to the state of a session. -/
theorem stateChange_toggleStep {resume : Bool} {pc : TogglePc}
    (h : toggleStep resume env s pc = some move) :
    StatesChange s (.toggle resume pc) move.task move.shared := by
  cases pc with
  | toggle =>
    rcases toggleStep_cases h with ⟨rfl, -⟩ | ⟨m, hm, hrecording, hpaused, rfl⟩
    · exact .stays rfl
    · refine .update (f := fun session => { session with
        state := { (s.sessions m).state with isPaused := !resume } }) ?_
      exact .toggles resume hm rfl rfl hrecording hpaused
  | _ => cases h; exact .stays rfl

theorem sameStates_reportDone {m : SessionId} (h : reportDone s m = some move) :
    SameStates s move.shared := .of_move h (.update rfl)

theorem sameStates_reportCounted {m : SessionId} {error : AudioError} {count recoverable : ℕ}
    (h : reportCounted s m error count recoverable = some move) : SameStates s move.shared := by
  rw [reportCounted] at h
  split at h
  · exact .of_move h fun _ => rfl
  · exact sameStates_reportDone h

/-- What a report does to the state of a session. -/
theorem stateChange_reportStep {m : SessionId} {error : AudioError} {pc : ReportPc}
    (h : reportStep m error env s pc = some move) :
    StatesChange s (.report m error pc) move.task move.shared := by
  cases pc with
  | count =>
    rw [reportStep] at h
    split at h
    · exact .of_move h (.update (.counts _ _))
    · exact .congr (sameStates_reportCounted h) (.update (.counts _ _))
  | countRecoverable count =>
    exact .congr (sameStates_reportCounted h) (.update (.counts _ _))
  | swap =>
    rw [reportStep] at h
    split at h
    · next herrored =>
      refine .congr (sameStates_reportDone h) (.update (.marks error rfl fun hclear => ?_))
      exact absurd (herrored.symm.trans hclear) (by simp)
    · exact .of_move h (.update (.marks error rfl fun _ => rfl))
  | lockCallback =>
    rw [reportStep, waitFor] at h
    split at h
    · split at h
      · exact .of_move h (.update .stays)
      · exact .congr (sameStates_reportDone h) (.stays rfl)
    · cases h
  | setMessage => cases h; exact .stays rfl
  | emitError => cases h; exact .stays rfl
  | spawnStop =>
    exact .of_move h (.update .stays)

/-- A worker leaves the states. -/
theorem sameStates_workerStep {m : SessionId} {pc : WorkerPc}
    (h : workerStep m env s pc = some move) : SameStates s move.shared := by
  cases pc with
  | idle =>
    rw [workerStep] at h
    split at h
    · exact .of_move h (.update rfl)
    · exact .of_move h (.update rfl)
  | enqueue c segment => exact .of_move h fun _ => rfl
  | deliver segment =>
    rw [workerStep] at h
    split at h
    · exact .of_move h (.update rfl)
    · exact .of_move h fun _ => rfl

/-- **Inversion.** What a step does to the state of a session. -/
theorem stateChange_of_step {a : ServiceTask} (h : step env s a = some move) (m : SessionId) :
    StateChange s a move.task m (s.sessions m).state (move.shared.sessions m).state := by
  cases a with
  | free => cases h
  | start pool pc => exact stateChange_startStep h m
  | stop call pc => exact stateChange_stopStep h m
  | toggle resume pc => exact stateChange_toggleStep h m
  | report m' error pc => exact stateChange_reportStep h m
  | worker m' pc =>
    rw [sameStates_workerStep h m]
    exact .stays
  | finished => cases h

/-- A call leaves the states. -/
theorem sameStates_begins {k : ServiceCall} {s' : Service} {a : ServiceTask}
    (h : begins k s = some (s', a)) : SameStates s s' := by
  cases k with
  | report m error =>
    rw [begins] at h
    split at h
    · obtain ⟨rfl, -⟩ := Prod.mk.inj (Option.some.inj h)
      exact .update rfl
    · cases h
  | _ => cases h; exact fun _ => rfl

end RecordingService

end MeetilyLocal
