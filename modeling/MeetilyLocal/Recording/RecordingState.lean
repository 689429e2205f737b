import Mathlib.Tactic.Common

/-!
# The state of one recording

The embedding of `RecordingState` and `AudioError` (`audio/recording_state.rs`), as far as the
recording service depends on them: whether the session records, whether it is paused, and the
error counters. Times, devices and the audio channel are left out.

Each operation of `report_error` on an atomic or on the callback's mutex is a function of its own,
because other tasks may run between them.
-/

namespace MeetilyLocal

/-- Comprehensive error types for the audio system. -/
inductive AudioError : Type where
  /-- the device is gone -/
  | deviceDisconnected : AudioError
  /-- a stream failed -/
  | streamFailed : AudioError
  /-- processing failed -/
  | processingFailed : AudioError
  /-- transcription failed -/
  | transcriptionFailed : AudioError
  /-- a channel was closed -/
  | channelClosed : AudioError
  /-- initialization failed -/
  | initializationFailed : AudioError
  /-- the configuration is wrong -/
  | configurationError : AudioError
  /-- the microphone may not be used -/
  | permissionDenied : AudioError
  /-- a buffer overflowed -/
  | bufferOverflow : AudioError
  /-- the sample rate is not supported -/
  | sampleRateUnsupported : AudioError
  deriving DecidableEq

namespace AudioError

/-- Check if the error is recoverable (can attempt reconnection). -/
def isRecoverable : AudioError → Bool
  | deviceDisconnected => true
  | streamFailed => true
  | processingFailed => true
  | transcriptionFailed => true
  | channelClosed => false
  | initializationFailed => false
  | configurationError => false
  | permissionDenied => false
  | bufferOverflow => true
  | sampleRateUnsupported => false

/-- User-friendly error message. -/
def userMessage : AudioError → String
  | deviceDisconnected => "Audio device was disconnected"
  | streamFailed => "Audio stream encountered an error"
  | processingFailed => "Audio processing failed"
  | transcriptionFailed => "Speech transcription failed"
  | channelClosed => "Audio channel was closed unexpectedly"
  | initializationFailed => "Failed to initialize audio system"
  | configurationError => "Audio configuration error"
  | permissionDenied => "Microphone permission denied"
  | bufferOverflow => "Audio buffer overflow"
  | sampleRateUnsupported => "Audio sample rate not supported"

end AudioError

/-- Unified state management for audio recording. -/
structure RecordingState : Type where
  /-- audio is recorded -/
  isRecording : Bool
  /-- the recording is paused -/
  isPaused : Bool
  /-- the number of errors -/
  errorCount : ℕ
  /-- the number of recoverable errors -/
  recoverableErrorCount : ℕ
  /-- an error callback is installed -/
  errorCallback : Bool
  /-- a fatal error was reported -/
  errored : Bool

namespace RecordingState

/-- A new state. -/
def new : RecordingState := ⟨false, false, 0, 0, false, false⟩

/-- `set_error_callback` -/
def setErrorCallback (s : RecordingState) : RecordingState := { s with errorCallback := true }

/-- `start_recording` -/
def startRecording (s : RecordingState) : RecordingState :=
  { s with isRecording := true, errorCount := 0, recoverableErrorCount := 0, errored := false }

/-- `stop_recording` -/
def stopRecording (s : RecordingState) : RecordingState :=
  { s with isRecording := false, isPaused := false }

/-- `pause_recording` -/
def pauseRecording (s : RecordingState) : Except String RecordingState :=
  if !s.isRecording then .error "Cannot pause when not recording"
  else if s.isPaused then .error "Recording is already paused"
  else .ok { s with isPaused := true }

/-- `resume_recording` -/
def resumeRecording (s : RecordingState) : Except String RecordingState :=
  if !s.isRecording then .error "Cannot resume when not recording"
  else if !s.isPaused then .error "Recording is not paused"
  else .ok { s with isPaused := false }

/-- `report_error` counts the error. -/
def countError (s : RecordingState) : RecordingState := { s with errorCount := s.errorCount + 1 }

/-- `report_error` counts a recoverable error. -/
def countRecoverable (s : RecordingState) : RecordingState :=
  { s with recoverableErrorCount := s.recoverableErrorCount + 1 }

/-- Whether `report_error` takes an error as fatal: `count` and `recoverableCount` are what the
counters returned. -/
def isFatal (error : AudioError) (count recoverableCount : ℕ) : Bool :=
  (if error.isRecoverable then decide (10 ≤ recoverableCount) else true) || decide (15 ≤ count)

/-- `report_error` marks the session as errored. -/
def markErrored (s : RecordingState) : RecordingState := { s with errored := true }

/-- `cleanup` -/
def cleanup (s : RecordingState) : RecordingState :=
  { s.stopRecording with
    errorCallback := false, errorCount := 0, recoverableErrorCount := 0, errored := false }

/-- What a pause that succeeds does. -/
theorem of_pauseRecording {s s' : RecordingState} (h : s.pauseRecording = .ok s') :
    s.isRecording = true ∧ s.isPaused = false ∧ s' = { s with isPaused := true } := by
  rcases hr : s.isRecording with _ | _ <;> rcases hp : s.isPaused with _ | _ <;>
    simp [pauseRecording, hr, hp] at h
  exact ⟨rfl, rfl, h.symm⟩

/-- What a resume that succeeds does. -/
theorem of_resumeRecording {s s' : RecordingState} (h : s.resumeRecording = .ok s') :
    s.isRecording = true ∧ s.isPaused = true ∧ s' = { s with isPaused := false } := by
  rcases hr : s.isRecording with _ | _ <;> rcases hp : s.isPaused with _ | _ <;>
    simp [resumeRecording, hr, hp] at h
  exact ⟨rfl, rfl, h.symm⟩

section Toggle

variable {x state : RecordingState} {resume : Bool} {message : String}

/-- What a pause or a resume that succeeds does. -/
theorem of_toggle (h : (if resume then x.resumeRecording else x.pauseRecording) = .ok state) :
    x.isRecording = true ∧ x.isPaused = resume ∧ state = { x with isPaused := !resume } := by
  rcases resume with _ | _
  · exact of_pauseRecording h
  · exact of_resumeRecording h

/-- Where it fails. -/
theorem of_not_toggle
    (h : (if resume then x.resumeRecording else x.pauseRecording) = .error message) :
    (x.isRecording, x.isPaused) ≠ (true, resume) := by
  intro hface
  obtain ⟨hrecords, hpaused⟩ := Prod.mk.inj hface
  rcases resume with _ | _ <;> simp [pauseRecording, resumeRecording, hrecords, hpaused] at h

end Toggle

end RecordingState

end MeetilyLocal
