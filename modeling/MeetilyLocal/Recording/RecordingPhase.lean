import Mathlib.Tactic.Common

/-!
# The canonical recording phase

The embedding of `audio/recording_phase.rs`: the phases of a recording, the table of the moves
between them (`nextPhase`) and the state that the phase is kept in. `PhaseState.apply` makes every
move, whether the table has it or not; a move that it does not have is only logged.
-/

namespace MeetilyLocal

/-- Recording lifecycle phase. -/
inductive RecordingPhase : Type where
  /-- no recording -/
  | idle : RecordingPhase
  /-- a start is under way -/
  | starting : RecordingPhase
  /-- audio is being recorded -/
  | recording : RecordingPhase
  /-- the recording is paused -/
  | paused : RecordingPhase
  /-- a stop is flushing the audio -/
  | stopping : RecordingPhase
  /-- a stop is draining and saving -/
  | finalising : RecordingPhase
  /-- a fatal error was reported -/
  | error : RecordingPhase
  deriving DecidableEq

namespace RecordingPhase

/-- The name of a phase in messages. -/
def debug : RecordingPhase → String
  | idle => "Idle"
  | starting => "Starting"
  | recording => "Recording"
  | paused => "Paused"
  | stopping => "Stopping"
  | finalising => "Finalising"
  | error => "Error"

/-- The moves that the transition table allows. -/
def allowed (current target : RecordingPhase) : Bool :=
  target == error ||
    match current, target with
    | idle, starting => true
    | starting, recording => true
    | starting, idle => true
    | recording, paused => true
    | paused, recording => true
    | recording, stopping => true
    | paused, stopping => true
    | stopping, finalising => true
    | finalising, idle => true
    | error, stopping => true
    | error, idle => true
    | _, _ => false

/-- Pure transition check: is the move an allowed one in the recording lifecycle? -/
def nextPhase (current target : RecordingPhase) : Except String RecordingPhase :=
  if allowed current target then .ok target
  else .error ("invalid recording phase transition: " ++ current.debug ++ " -> " ++ target.debug)

/-- The check succeeds on the moves of the table, and then gives the target. -/
theorem nextPhase_eq_ok_iff {current target phase : RecordingPhase} :
    nextPhase current target = .ok phase ↔ allowed current target = true ∧ phase = target := by
  rcases h : allowed current target with _ | _
  · simp [nextPhase, h]
  · simp [nextPhase, h, eq_comm]

end RecordingPhase

/-- The phase and what is kept with it; `Meeting` is what names a meeting. -/
structure PhaseState (Meeting : Type) : Type where
  /-- the current phase -/
  phase : RecordingPhase
  /-- when the session entered the recording phase -/
  startedAtMs : Option ℕ
  /-- name, folder and row of the meeting -/
  meeting : Option Meeting
  /-- the last fatal error's message -/
  error : Option String
  /-- counts the moves -/
  seq : ℕ

namespace PhaseState

variable {Meeting : Type}

/-- The state at program start. -/
def initial : PhaseState Meeting := ⟨.idle, none, none, none, 0⟩

/-- Move to a phase, stamping and clearing what follows from it. -/
def apply (now : ℕ) (target : RecordingPhase) (state : PhaseState Meeting) : PhaseState Meeting :=
  let stamped : PhaseState Meeting :=
    match target with
    | .recording => { state with startedAtMs := state.startedAtMs.orElse fun _ => some now }
    | .idle => { state with startedAtMs := none, meeting := none, error := none }
    | _ => state
  { stamped with phase := target, seq := state.seq + 1 }

/-- `set_meeting_info` -/
def setMeetingInfo (meeting : Option Meeting) (state : PhaseState Meeting) : PhaseState Meeting :=
  { state with meeting }

/-- `set_error_message` -/
def setErrorMessage (error : Option String) (state : PhaseState Meeting) : PhaseState Meeting :=
  { state with error }

@[simp]
theorem phase_apply (now : ℕ) (target : RecordingPhase) (state : PhaseState Meeting) :
    (state.apply now target).phase = target := rfl

@[simp]
theorem seq_apply (now : ℕ) (target : RecordingPhase) (state : PhaseState Meeting) :
    (state.apply now target).seq = state.seq + 1 := rfl

@[simp]
theorem phase_setMeetingInfo (meeting : Option Meeting) (state : PhaseState Meeting) :
    (state.setMeetingInfo meeting).phase = state.phase := rfl

@[simp]
theorem phase_setErrorMessage (error : Option String) (state : PhaseState Meeting) :
    (state.setErrorMessage error).phase = state.phase := rfl

end PhaseState

end MeetilyLocal
