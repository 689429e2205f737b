import MeetilyLocal.Recording.ExitWait

/-!
# Starts that fail

A start that gets past `begin_start_phase` and has the service to itself (`startRun`) fails where
the model is not valid, where the manager does not start, or where `recording-started` is not
emitted. In the first two cases it leaves nothing behind, in the last one everything
(`RecordingService.startLeavesNothing_iff`).
-/

namespace MeetilyLocal

namespace RecordingService

variable {pool ok : Bool} {env : StartPc → Env} {n : ℕ} {s s' : Service} {pc pc' : StartPc}
  {m : SessionId}

/-! ## A start on its own -/

/-- A start goes on from a point without a step of another task, where `env` decides for the outside
at each point: the state it leaves, and whether it has got to its last change of phase and so
returns `Ok`. It has at most `n` steps. -/
def startRun (pool : Bool) (env : StartPc → Env) : ℕ → Bool → Service → StartPc →
    Option (Service × Bool)
  | 0, _, _, _ => none
  | n + 1, ok, s, pc =>
    (startStep pool (env pc) s pc).bind fun move =>
      match move.task with
      | .start _ pc' => startRun pool env n (decide (pc = .emitRecording) || ok) move.shared pc'
      | _ => some (move.shared, ok)

/-- A step that does not return. -/
theorem startRun_goes (h : startStep pool (env pc) s pc = goTo s' (.start pool pc'))
    (hpc : pc ≠ .emitRecording) :
    startRun pool env (n + 1) ok s pc = startRun pool env n ok s' pc' := by
  simp [startRun, h, goTo, hpc]

/-- The manager does not start. -/
def managerFails (env : StartPc → Env) (m : SessionId) : Prop :=
  (env (.startPipeline m)).ok = false ∨ (env (.startStreams m)).ok = false

/-- What is there after an attempt was there before. -/
structure NothingNew (before after : Service) : Prop where
  /-- `RECORDING_MANAGER` -/
  manager : after.manager = before.manager
  /-- `TRANSCRIPTION_TASK` -/
  transcriptionTask : after.transcriptionTask = before.transcriptionTask
  /-- `SUBSCRIBER` -/
  subscriber : after.subscriber = before.subscriber
  /-- `TRANSCRIPT_DB_WRITER` -/
  dbWriter : after.dbWriter = before.dbWriter
  /-- the speaker diarizer -/
  diarizer : after.diarizer = before.diarizer
  /-- the rows of meetings that are being recorded -/
  row : ∀ m, (after.sessions m).row = some .recording → (before.sessions m).row = some .recording

/-- An attempt leaves nothing: the phase is `Idle`, the slot is empty, and the rest was there
before. -/
structure LeavesNothing (before after : Service) : Prop extends NothingNew before after where
  /-- the phase -/
  phase : after.phase.phase = .idle
  /-- the slot -/
  empty : after.manager = none

theorem nothingNew_refl : NothingNew s s := ⟨rfl, rfl, rfl, rfl, rfl, fun _ => id⟩

namespace NothingNew

variable {u : Service}

/-- A change of a session that gives it no row. -/
theorem update {f : Session → Session} (h : NothingNew s u)
    (hrow : (f (u.sessions m)).row = some .recording → (u.sessions m).row = some .recording) :
    NothingNew s (u.update m f) where
  manager := h.manager
  transcriptionTask := h.transcriptionTask
  subscriber := h.subscriber
  dbWriter := h.dbWriter
  diarizer := h.diarizer
  row other hother := by
    refine h.row other ?_
    rcases eq_or_ne other m with rfl | hne
    · exact hrow (by simpa [Service.update] using hother)
    · simpa [Service.update, hne] using hother

/-- A change of the phase. -/
theorem emitPhase {now : ℕ} {phase : RecordingPhase} (h : NothingNew s u) :
    NothingNew s (u.emitPhase now phase) :=
  ⟨h.manager, h.transcriptionTask, h.subscriber, h.dbWriter, h.diarizer, h.row⟩

/-- A change of the flag of the start. -/
theorem setStart {held : Bool} (h : NothingNew s u) :
    NothingNew s { u with startInProgress := held } :=
  ⟨h.manager, h.transcriptionTask, h.subscriber, h.dbWriter, h.diarizer, h.row⟩

end NothingNew

/-! ## From point to point -/

/-- The start has got past `begin_start_phase`, and has changed the phase. -/
def claimed (env : StartPc → Env) (s : Service) : Service :=
  ({ s with startInProgress := true } : Service).emitPhase (env .emitStarting).now .starting

/-- Its manager records. -/
def begun (pool : Bool) (env : StartPc → Env) (s : Service) : Service :=
  ({ (claimed env s).update s.nextSession fun _ => .new pool with
    nextSession := s.nextSession + 1 } : Service).update s.nextSession fun session =>
      { session with state := session.state.startRecording }

theorem startRun_claims (hstart : s.startInProgress = false) (hstop : s.stopInProgress = false)
    (hidle : s.isRecording = false) :
    startRun pool env (n + 4) ok s .tryStart = startRun pool env n ok (claimed env s) .validate := by
  let held : Service := { s with startInProgress := true }
  have htry : startStep pool (env .tryStart) s .tryStart = goTo held (.start pool .loadStop) := by
    simp [startStep, hstart, held]
  have hlook : startStep pool (env .loadStop) held .loadStop =
      goTo held (.start pool .checkRecording) := by
    simp [startStep, hstop, held]
  have hcheck : startStep pool (env .checkRecording) held .checkRecording =
      goTo held (.start pool .emitStarting) := by
    have hidle' : held.isRecording = false := hidle
    simp [startStep, hidle']
  rw [startRun_goes htry (by simp), startRun_goes hlook (by simp), startRun_goes hcheck (by simp)]
  rfl

/-- The model is not valid. -/
theorem startRun_invalid (h : (env .validate).ok = false) :
    startRun pool env (n + 3) ok s .validate =
      some ({ s.emitPhase (env (.emitIdle none)).now .idle with startInProgress := false }, ok) := by
  have hinvalid : startStep pool (env .validate) s .validate =
      goTo s (.start pool (.emitIdle none)) := by simp [startStep, h]
  rw [startRun_goes hinvalid (by simp)]
  rfl

/-- It is. -/
theorem startRun_valid (h : (env .validate).ok = true) :
    startRun pool env (n + 3) ok (claimed env s) .validate =
      startRun pool env n ok (begun pool env s) (.startPipeline s.nextSession) := by
  have hvalid : startStep pool (env .validate) (claimed env s) .validate =
      goTo (claimed env s) (.start pool .create) := by simp [startStep, h]
  rw [startRun_goes hvalid (by simp)]
  rfl

/-- A start that has failed drops its manager. -/
theorem startRun_aborts (hlocked : (s.sessions m).callbackLocked = false) :
    startRun pool env (n + 4) ok s (.abortStart m) =
      some ({ ((s.update m fun session =>
        { session with state := session.state.stopRecording }).emitPhase
          (env (.emitIdle (some m))).now .idle).dropManager m with startInProgress := false }, ok) := by
  let stopped : Service := (s.update m fun session =>
    { session with state := session.state.stopRecording }).emitPhase
      (env (.emitIdle (some m))).now .idle
  have hready : stopped.callbackLocked (some m) = false := by
    simpa [stopped, Service.callbackLocked, Service.emitPhase, Service.update] using hlocked
  have hdrop : startStep pool (env (.dropManager m)) stopped (.dropManager m) =
      goTo (stopped.dropManager m) (.start pool .release) := by
    simp [startStep, waitFor, hready]
  calc startRun pool env (n + 4) ok s (.abortStart m)
      = startRun pool env (n + 2) ok stopped (.dropManager m) := rfl
    _ = startRun pool env (n + 1) ok (stopped.dropManager m) .release := startRun_goes hdrop (by simp)
    _ = _ := rfl

theorem nothingNew_claimed : NothingNew s (claimed env s) := nothingNew_refl.setStart.emitPhase

theorem nothingNew_begun : NothingNew s (begun pool env s) := by
  have hnew : NothingNew s ((claimed env s).update s.nextSession fun _ => .new pool) :=
    nothingNew_claimed.update nofun
  exact NothingNew.update (u := { (claimed env s).update s.nextSession fun _ => .new pool with
    nextSession := s.nextSession + 1 }) ⟨hnew.manager, hnew.transcriptionTask, hnew.subscriber,
      hnew.dbWriter, hnew.diarizer, hnew.row⟩ id

theorem callbackLocked_begun (pool : Bool) (env : StartPc → Env) (s : Service) :
    ((begun pool env s).sessions s.nextSession).callbackLocked = false := by
  simp [begun, Service.update, Session.new]

/-- A start that has failed leaves nothing. -/
theorem startRun_abandons {u : Service} (hnew : NothingNew s u) (hnone : s.manager = none)
    (hlocked : (u.sessions m).callbackLocked = false) :
    ∃ s', startRun pool env (n + 4) ok u (.abortStart m) = some (s', ok) ∧ LeavesNothing s s' := by
  refine ⟨_, startRun_aborts hlocked, ?_, rfl, hnew.manager.trans hnone⟩
  exact ((hnew.update id).emitPhase.update id).setStart

/-- So does one whose manager does not start. -/
theorem startRun_fails (pool ok : Bool) (h : managerFails env s.nextSession)
    (hnone : s.manager = none) :
    ∃ s', startRun pool env (n + 6) ok (begun pool env s) (.startPipeline s.nextSession) =
      some (s', ok) ∧ LeavesNothing s s' := by
  rcases hpipeline : (env (.startPipeline s.nextSession)).ok with _ | _
  · have hstep : startStep pool (env (.startPipeline s.nextSession)) (begun pool env s)
        (.startPipeline s.nextSession) =
          goTo (begun pool env s) (.start pool (.abortStart s.nextSession)) := by
      simp [startStep, hpipeline]
    rw [startRun_goes hstep (by simp)]
    exact startRun_abandons nothingNew_begun hnone (callbackLocked_begun _ _ _)
  · have hstreams := h.resolve_left (by simp [hpipeline])
    let opened : Service := (begun pool env s).update s.nextSession fun session =>
      { session with streamsOpen := true }
    have hstep : startStep pool (env (.startPipeline s.nextSession)) (begun pool env s)
        (.startPipeline s.nextSession) =
          goTo opened (.start pool (.startStreams s.nextSession)) := by
      simp [startStep, hpipeline, opened]
    have hstep' : startStep pool (env (.startStreams s.nextSession)) opened
        (.startStreams s.nextSession) = goTo opened (.start pool (.abortStart s.nextSession)) := by
      simp [startStep, hstreams]
    rw [startRun_goes hstep (by simp), startRun_goes hstep' (by simp)]
    refine startRun_abandons (nothingNew_begun.update id) hnone ?_
    simpa [opened, Service.update] using callbackLocked_begun pool env s

/-- The worker and the subscriber are installed for the manager in the slot. -/
theorem startRun_installs (pool ok : Bool) (env : StartPc → Env) {v : Service}
    (hmanager : v.manager = some m) : ∃ told : Service,
    startRun pool env (n + 4) ok v (.initDiarizer m) = startRun pool env n ok told .emitStarted ∧
      told.manager = some m := by
  let diarizer : Option SessionId := if (env (.initDiarizer m)).found then some m else none
  rcases hok : (env (.initDiarizer m)).ok with _ | _
  · have hstep : startStep pool (env (.initDiarizer m)) v (.initDiarizer m) =
        goTo v (.start pool (.spawnWorker m)) := by simp [startStep, hok]
    rw [startRun_goes hstep (by simp)]
    exact ⟨_, rfl, hmanager⟩
  · have hstep : startStep pool (env (.initDiarizer m)) v (.initDiarizer m) =
        goTo { v with diarizer } (.start pool (.spawnWorker m)) := by
      simp [startStep, hok, diarizer]
    rw [startRun_goes hstep (by simp)]
    exact ⟨_, rfl, hmanager⟩

/-- A start that stores its manager leaves it in the slot, whether the event is emitted or not. -/
theorem startRun_stores {u : Service} (hnone : u.manager = none) : ∃ s',
    startRun pool env (n + 8) false u (.store m) = some (s', (env .emitStarted).ok) ∧
      s'.manager = some m := by
  have hstore : startStep pool (env (.store m)) u (.store m) =
      goTo { u with manager := some m } (.start pool (.initDiarizer m)) := by
    simp [startStep, waitFor, Service.callbackLocked, Service.storeManager, hnone]
  obtain ⟨told, htold, hmanager⟩ :=
    startRun_installs pool false env (n := n + 3) (v := { u with manager := some m }) rfl
  rw [startRun_goes hstore (by simp), htold]
  rcases hevent : (env .emitStarted).ok with _ | _
  · have hstep : startStep pool (env .emitStarted) told .emitStarted =
        goTo told (.start pool .release) := by simp [startStep, hevent]
    rw [startRun_goes hstep (by simp)]
    exact ⟨_, rfl, hmanager⟩
  · have hstep : startStep pool (env .emitStarted) told .emitStarted =
        goTo told (.start pool .emitRecording) := by simp [startStep, hevent]
    rw [startRun_goes hstep (by simp)]
    exact ⟨_, rfl, hmanager⟩

/-- A start whose manager starts stores it. -/
theorem startRun_starts (pool : Bool) (h : ¬managerFails env s.nextSession)
    (hnone : s.manager = none) : ∃ s',
    startRun pool env (n + 13) false (begun pool env s) (.startPipeline s.nextSession) =
      some (s', (env .emitStarted).ok) ∧ s'.manager = some s.nextSession := by
  obtain ⟨hpipeline, hstreams⟩ := not_or.mp h
  let opened : Service := (begun pool env s).update s.nextSession fun session =>
    { session with streamsOpen := true }
  let told : Service := { opened with
    phase := opened.phase.setMeetingInfo (some s.nextSession) }
  have hstep : startStep pool (env (.startPipeline s.nextSession)) (begun pool env s)
      (.startPipeline s.nextSession) = goTo opened (.start pool (.startStreams s.nextSession)) := by
    simp [startStep, hpipeline, opened]
  have hstep' : startStep pool (env (.startStreams s.nextSession)) opened
      (.startStreams s.nextSession) = goTo opened (.start pool (.setMeetingInfo s.nextSession)) := by
    simp [startStep, hstreams]
  have hempty : told.manager = none := hnone
  rw [startRun_goes hstep (by simp), startRun_goes hstep' (by simp)]
  cases pool with
  | false => exact startRun_stores (n := n + 2) hempty
  | true =>
    have hset : startRun true env (n + 11) false opened (.setMeetingInfo s.nextSession) =
        startRun true env (n + 10) false told (.createRow s.nextSession) := rfl
    rw [hset]
    rcases hrow : (env (.createRow s.nextSession)).ok with _ | _
    · have hcreate : startStep true (env (.createRow s.nextSession)) told
          (.createRow s.nextSession) = goTo told (.start true (.startWriter s.nextSession)) := by
        simp [startStep, hrow]
      rw [startRun_goes hcreate (by simp)]
      exact startRun_stores (n := n) (u := { told with dbWriter := some s.nextSession }) hempty
    · let rowed : Service := told.update s.nextSession fun session =>
        { session with row := some .recording }
      have hcreate : startStep true (env (.createRow s.nextSession)) told
          (.createRow s.nextSession) = goTo rowed (.start true (.startWriter s.nextSession)) := by
        simp [startStep, hrow, rowed]
      rw [startRun_goes hcreate (by simp)]
      exact startRun_stores (n := n) (u := { rowed with dbWriter := some s.nextSession }) hempty

/-! ## What a failed start leaves -/

/-- Where nothing records and no stop is in progress, the slot is empty. -/
theorem manager_of_reaches {d : Tasks.Discipline Service ServiceTask Env ServiceCall}
    {c : Tasks.Config Service ServiceTask} (h : Tasks.Reaches program d start c)
    (hstop : c.shared.stopInProgress = false) (hidle : c.shared.isRecording = false) :
    c.shared.manager = none := by
  rcases hm : c.shared.manager with _ | m
  · rfl
  rcases recording_or_finishing h hm with hrecords | ⟨t, hfinishing⟩
  · rw [Service.isRecording, hm] at hidle
    exact absurd (hidle.symm.trans hrecords) Bool.false_ne_true
  · have hset := ((hold_flags h).own t).2 (Role.holdsStop_of_finishing hfinishing)
    exact absurd (hstop.symm.trans hset) Bool.false_ne_true

/-- **A failed start.** From whatever state the service has come to, a start that gets past
`begin_start_phase` returns, and if it fails it leaves nothing exactly when the model was not valid
or the manager did not start. -/
theorem startLeavesNothing_iff (c : Tasks.Config Service ServiceTask)
    (h : Tasks.Reaches program .free start c) (hstart : c.shared.startInProgress = false)
    (hstop : c.shared.stopInProgress = false) (hidle : c.shared.isRecording = false) (pool : Bool)
    (env : StartPc → Env) :
    ∃ s' ok, startRun pool env 20 false c.shared .tryStart = some (s', ok) ∧
      (ok = false → (LeavesNothing c.shared s' ↔
        (env .validate).ok = false ∨ managerFails env c.shared.nextSession)) := by
  have hnone := manager_of_reaches h hstop hidle
  rw [startRun_claims (n := 16) hstart hstop hidle]
  rcases hvalid : (env .validate).ok with _ | _
  · refine ⟨_, _, startRun_invalid (n := 13) hvalid, fun _ => ⟨fun _ => .inl rfl, fun _ => ?_⟩⟩
    exact ⟨nothingNew_claimed.emitPhase.setStart, rfl, hnone⟩
  rw [startRun_valid (n := 13) hvalid]
  by_cases hfails : managerFails env c.shared.nextSession
  · obtain ⟨s', hrun, hleaves⟩ := startRun_fails pool false (n := 7) hfails hnone
    exact ⟨s', _, hrun, fun _ => ⟨fun _ => .inr hfails, fun _ => hleaves⟩⟩
  · obtain ⟨s', hrun, hmanager⟩ := startRun_starts pool (n := 0) hfails hnone
    refine ⟨s', _, hrun, fun _ => ⟨fun hleaves => ?_, fun hcases => ?_⟩⟩
    · -- the manager is still there
      rw [hleaves.empty] at hmanager
      cases hmanager
    · exact absurd hcases (not_or.mpr ⟨nofun, hfails⟩)

/-- All goes well but the streams, which do not start. -/
def noStreams : StartPc → Env
  | .startStreams _ => ⟨false, true, 0⟩
  | _ => ⟨true, true, 0⟩

/-- All goes well but the event, which is not emitted. -/
def noEvent : StartPc → Env
  | .emitStarted => ⟨false, true, 0⟩
  | _ => ⟨true, true, 0⟩

/-- A start without streams. -/
theorem leavesNothing_noStreams : ∃ s', startRun true noStreams 20 false .initial .tryStart =
    some (s', false) ∧ LeavesNothing .initial s' := by
  obtain ⟨s', ok, hrun, hleaves⟩ := startLeavesNothing_iff start .refl rfl rfl rfl true noStreams
  have hfailed : (startRun true noStreams 20 false .initial .tryStart).map Prod.snd =
      some false := rfl
  obtain rfl : ok = false := by simpa using (congrArg (Option.map Prod.snd) hrun).symm.trans hfailed
  exact ⟨s', hrun, (hleaves rfl).mpr (.inr (.inr rfl))⟩

/-- In general a failed start leaves something: without the event the phase stays `Starting`, and
the manager and all the rest stay. -/
theorem not_leavesNothing_noEvent : ¬∀ env s',
    startRun true env 20 false .initial .tryStart = some (s', false) → LeavesNothing .initial s' := by
  intro h
  obtain ⟨⟨s', ok⟩, hrun, hleft⟩ := Option.map_eq_some_iff.mp
    (show (startRun true noEvent 20 false .initial .tryStart).map (fun result =>
      (result.2, result.1.phase.phase, result.1.manager, result.1.transcriptionTask,
        result.1.subscriber, result.1.dbWriter, result.1.diarizer, (result.1.sessions 0).row)) =
      some (false, .starting, some 0, some 0, some 0, some 0, some 0, some .recording) from rfl)
  obtain ⟨rfl, hleft⟩ := Prod.mk.inj hleft
  obtain ⟨hphase, -⟩ := Prod.mk.inj hleft
  exact absurd ((h noEvent s' hrun).phase.symm.trans hphase) nofun

end RecordingService

end MeetilyLocal
