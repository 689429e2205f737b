import Mathlib.Tactic.Ring
import Mathlib.Tactic.NormNum
import MeetilyLocal.Recording.RecordingState

/-!
# The clock of a recording

What `RecordingState` keeps of time (`audio/recording_state.rs`): when the recording started, when
the pause under way started, and how long the pauses before it were; and the two ways in which
`RecordingManager` stops a recording (`audio/recording_manager.rs`). An instant is a number of
nanoseconds, and a duration in seconds a rational number; what rounding does to it is left out.

The getter of the active duration is right after every run of pauses and resumes
(`RecordingClock.getActiveRecordingDuration_run`), so `stop_recording`, which reads it first, saves
the active duration. The stop of the recording service reads it after `cleanup`, when there is none
(`RecordingClock.not_savesActiveDuration`).
-/

namespace MeetilyLocal

/-- `Duration::as_secs_f64` -/
def asSecs (nanos : ℕ) : ℚ := nanos / 1000000000

theorem asSecs_add (a b : ℕ) : asSecs (a + b) = asSecs a + asSecs b := by
  simp only [asSecs, Nat.cast_add]
  ring

/-- `RecordingState` with its clock. -/
structure RecordingClock : Type extends RecordingState where
  /-- when the recording started -/
  recordingStart : Option ℕ
  /-- when the pause under way started -/
  pauseStart : Option ℕ
  /-- how long the pauses before it were -/
  totalPauseDuration : ℕ

namespace RecordingClock

/-- A new state. -/
def new : RecordingClock := ⟨.new, none, none, 0⟩

/-- `start_recording` -/
def startRecording (now : ℕ) (s : RecordingClock) : RecordingClock :=
  { s with toRecordingState := s.toRecordingState.startRecording, recordingStart := some now }

/-- `stop_recording` -/
def stopRecording (s : RecordingClock) : RecordingClock :=
  { s with toRecordingState := s.toRecordingState.stopRecording, pauseStart := none }

/-- `pause_recording` -/
def pauseRecording (now : ℕ) (s : RecordingClock) : Except String RecordingClock :=
  match s.toRecordingState.pauseRecording with
  | .error e => .error e
  | .ok state => .ok { s with toRecordingState := state, pauseStart := some now }

/-- `resume_recording` -/
def resumeRecording (now : ℕ) (s : RecordingClock) : Except String RecordingClock :=
  match s.toRecordingState.resumeRecording with
  | .error e => .error e
  | .ok state =>
    match s.pauseStart with
    | some pauseStart =>
      .ok { s with
        toRecordingState := state
        pauseStart := none
        totalPauseDuration := s.totalPauseDuration + (now - pauseStart) }
    | none => .ok { s with toRecordingState := state }

/-- `get_active_recording_duration` -/
def getActiveRecordingDuration (now : ℕ) (s : RecordingClock) : Option ℚ :=
  s.recordingStart.map fun start =>
    let totalDuration := asSecs (now - start)
    let pauseDuration := asSecs s.totalPauseDuration
    let currentPause :=
      if s.isPaused then
        match s.pauseStart with
        | some pauseStart => asSecs (now - pauseStart)
        | none => 0
      else 0
    totalDuration - pauseDuration - currentPause

/-- `cleanup` -/
def cleanup (s : RecordingClock) : RecordingClock :=
  ⟨s.stopRecording.toRecordingState.cleanup, none, none, 0⟩

/-! ## Runs of pauses and resumes -/

/-- A call of `pause_recording` or `resume_recording`, and when. -/
inductive Toggle : Type where
  /-- `pause_recording` -/
  | pause : ℕ → Toggle
  /-- `resume_recording` -/
  | resume : ℕ → Toggle
  deriving DecidableEq

/-- The state after a call; one that fails leaves it as it is. -/
def toggle (s : RecordingClock) : Toggle → RecordingClock
  | .pause now => (s.pauseRecording now).toOption.getD s
  | .resume now => (s.resumeRecording now).toOption.getD s

/-- The state after calls. -/
def run (s : RecordingClock) (toggles : List Toggle) : RecordingClock := toggles.foldl toggle s

/-- How long a recording is paused until `stop`: the total of its pauses, with the one that is open
at the end, where `paused` is when the pause under way started. -/
def pausedTime (stop : ℕ) : Option ℕ → List Toggle → ℕ
  | none, [] => 0
  | some since, [] => stop - since
  | none, .pause now :: toggles => pausedTime stop (some now) toggles
  | none, .resume _ :: toggles => pausedTime stop none toggles
  | some since, .pause _ :: toggles => pausedTime stop (some since) toggles
  | some since, .resume now :: toggles => now - since + pausedTime stop none toggles

/-- The seconds from `start` to `stop` in which a recording was not paused. -/
def activeTime (start stop : ℕ) (toggles : List Toggle) : ℚ :=
  asSecs (stop - start) - asSecs (pausedTime stop none toggles)

/-- A recording that started at `start` and whose pause under way started at `paused`. -/
structure Runs (s : RecordingClock) (start : ℕ) (paused : Option ℕ) : Prop where
  /-- it records -/
  isRecording : s.isRecording = true
  /-- when it started -/
  recordingStart : s.recordingStart = some start
  /-- whether it is paused -/
  isPaused : s.isPaused = paused.isSome
  /-- since when -/
  pauseStart : s.pauseStart = paused

variable {s : RecordingClock} {start since now stop : ℕ} {paused : Option ℕ} {toggles : List Toggle}

theorem runs_startRecording : (new.startRecording start).Runs start none := ⟨rfl, rfl, rfl, rfl⟩

/-- The getter, in a recording that runs. -/
theorem Runs.getActiveRecordingDuration (h : s.Runs start paused) :
    s.getActiveRecordingDuration now =
      some (asSecs (now - start) - asSecs (s.totalPauseDuration + pausedTime now paused [])) := by
  cases paused with
  | none =>
    simp [RecordingClock.getActiveRecordingDuration, h.recordingStart, h.isPaused, pausedTime]
  | some since =>
    simp only [RecordingClock.getActiveRecordingDuration, h.recordingStart, h.isPaused,
      h.pauseStart, pausedTime, asSecs_add, Option.isSome_some, if_true, Option.map_some]
    ring_nf

/-- A pause begins. -/
theorem Runs.pause (h : s.Runs start none) (now : ℕ) :
    (s.toggle (.pause now)).Runs start (some now) ∧
      (s.toggle (.pause now)).totalPauseDuration = s.totalPauseDuration := by
  have heq : s.toggle (.pause now) =
      { s with toRecordingState := { s.toRecordingState with isPaused := true },
               pauseStart := some now } := by
    simp [toggle, pauseRecording, RecordingState.pauseRecording, h.isRecording, h.isPaused,
      Except.toOption]
  rw [heq]
  exact ⟨⟨h.isRecording, h.recordingStart, rfl, rfl⟩, rfl⟩

/-- A pause ends. -/
theorem Runs.resume (h : s.Runs start (some since)) (now : ℕ) :
    (s.toggle (.resume now)).Runs start none ∧
      (s.toggle (.resume now)).totalPauseDuration = s.totalPauseDuration + (now - since) := by
  have heq : s.toggle (.resume now) =
      { s with toRecordingState := { s.toRecordingState with isPaused := false },
               pauseStart := none, totalPauseDuration := s.totalPauseDuration + (now - since) } := by
    simp [toggle, resumeRecording, RecordingState.resumeRecording, h.isRecording, h.isPaused,
      h.pauseStart, Except.toOption]
  rw [heq]
  exact ⟨⟨h.isRecording, h.recordingStart, rfl, rfl⟩, rfl⟩

/-- A second pause fails. -/
theorem Runs.pause_paused (h : s.Runs start (some since)) : s.toggle (.pause now) = s := by
  simp [toggle, pauseRecording, RecordingState.pauseRecording, h.isRecording, h.isPaused,
    Except.toOption]

/-- A resume without a pause fails. -/
theorem Runs.resume_unpaused (h : s.Runs start none) : s.toggle (.resume now) = s := by
  simp [toggle, resumeRecording, RecordingState.resumeRecording, h.isRecording, h.isPaused,
    Except.toOption]

/-- The getter after more calls. -/
theorem Runs.getActiveRecordingDuration_run (h : s.Runs start paused) :
    (s.run toggles).getActiveRecordingDuration now =
      some (asSecs (now - start) - asSecs (s.totalPauseDuration + pausedTime now paused toggles)) := by
  induction toggles generalizing s paused with
  | nil => exact h.getActiveRecordingDuration
  | cons call toggles ih =>
    rw [run, List.foldl_cons, ← run]
    cases call with
    | pause at' =>
      cases paused with
      | none =>
        obtain ⟨hruns, htotal⟩ := h.pause at'
        rw [ih hruns, htotal, pausedTime]
      | some since => rw [h.pause_paused, ih h, pausedTime]
    | resume at' =>
      cases paused with
      | none => rw [h.resume_unpaused, ih h, pausedTime]
      | some since =>
        obtain ⟨hruns, htotal⟩ := h.resume at'
        rw [ih hruns, htotal, pausedTime, Nat.add_assoc]

/-- **The getter is right.** After any calls, it returns the active time so far. -/
theorem getActiveRecordingDuration_run :
    ((new.startRecording start).run toggles).getActiveRecordingDuration now =
      some (activeTime start now toggles) := by
  rw [runs_startRecording.getActiveRecordingDuration_run, activeTime]
  simp [startRecording, new]

/-! ## Stopping -/

/-- `stop_streams_and_force_flush` of the manager, as far as the recording state is concerned -/
def stopStreamsAndForceFlush (s : RecordingClock) : RecordingClock := s.stopRecording.cleanup

/-- What `save_recording_only` passes to `stop_and_save`. -/
def saveRecordingOnly (now : ℕ) (s : RecordingClock) : Option ℚ := s.getActiveRecordingDuration now

/-- What `stop_recording` of the manager passes to `stop_and_save`. -/
def legacyStop (now : ℕ) (s : RecordingClock) : Option ℚ × RecordingClock :=
  let recordingDuration := s.getActiveRecordingDuration now
  (recordingDuration, s.stopRecording)

/-- The duration that `stop_and_save` writes to the metadata; `ends` are the end times of the
transcript segments. -/
def metadataDuration (recordingDuration : Option ℚ) (ends : List (Option ℚ)) : Option ℚ :=
  recordingDuration.or (ends.getLast?.bind id)

/-- `stop_recording` passes the active duration. -/
theorem legacyStop_run :
    (((new.startRecording start).run toggles).legacyStop stop).1 =
      some (activeTime start stop toggles) :=
  getActiveRecordingDuration_run

/-- After the flush nothing is left of the clock. -/
theorem saveRecordingOnly_stopStreamsAndForceFlush (s : RecordingClock) (now : ℕ) :
    s.stopStreamsAndForceFlush.saveRecordingOnly now = none := rfl

/-- So the metadata gets the end of the last transcript segment. -/
theorem metadataDuration_stopStreamsAndForceFlush (s : RecordingClock) (now : ℕ)
    (ends : List (Option ℚ)) :
    metadataDuration (s.stopStreamsAndForceFlush.saveRecordingOnly now) ends =
      ends.getLast?.bind id := by
  rw [saveRecordingOnly_stopStreamsAndForceFlush, metadataDuration, Option.none_or]

/-- The stop of the recording service, at `stop`, passes the active duration of a recording to
`stop_and_save`, which it calls at `now`. -/
def SavesActiveDuration (start stop now : ℕ) (toggles : List Toggle) : Prop :=
  (((new.startRecording start).run toggles).stopStreamsAndForceFlush).saveRecordingOnly now =
    some (activeTime start stop toggles)

/-- **No duration is saved.** The stop of the recording service never passes the active duration. -/
theorem not_savesActiveDuration (start stop now : ℕ) (toggles : List Toggle) :
    ¬SavesActiveDuration start stop now toggles := by
  intro h
  rw [SavesActiveDuration, saveRecordingOnly_stopStreamsAndForceFlush] at h
  cases h

/-- A recording of an hour, with a pause of ten minutes, that is stopped and saved a minute later. -/
theorem not_savesActiveDuration_hour :
    ¬∀ (start stop now : ℕ) (toggles : List Toggle), SavesActiveDuration start stop now toggles := by
  intro h
  have hour : SavesActiveDuration 0 3600000000000 3660000000000
      [.pause 600000000000, .resume 1200000000000] := h _ _ _ _
  rw [SavesActiveDuration, saveRecordingOnly_stopStreamsAndForceFlush] at hour
  cases hour

end RecordingClock

end MeetilyLocal
