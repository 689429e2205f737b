import MeetilyLocal.Library.Tasks

/-!
# Recording one's own voice

The enrollment of the user's voice (`speaker_diarization/enrollment.rs`): `start`, `cancel` and
`finish` share one slot for the capture session and a counter of generations that each of them
bumps. Any number of them run as tasks, interleaved at their awaits, and also between the bump and
the stop that follows it.

A start opens its stream between its bump and its install, and installs without looking at the
counter again. When nothing has bumped it in between (`current`), what is in the slot while no
call is in progress is the capture of the latest generation (`stopsListening_of_reaches`). Otherwise a
capture survives the cancel that should have ended it (`not_stopsListening_cancelled`).
-/

namespace MeetilyLocal

namespace Enrollment

/-- A capture from the microphone, by the generation of the start that opened its stream. -/
structure EnrollmentSession : Type where
  /-- what the start took as its generation -/
  generation : ℕ
  deriving DecidableEq

/-- What the calls share: the statics `GENERATION` and `SESSION`. -/
structure Shared : Type where
  /-- bumped on every start and stop -/
  generation : ℕ
  /-- the capture that is under way -/
  session : Option EnrollmentSession

/-- Stop the capture stream, if there is one. -/
def Shared.stopCurrentSession (s : Shared) : Shared := { s with session := none }

/-- `GENERATION.fetch_add(1)` -/
def Shared.bump (s : Shared) : Shared := { s with generation := s.generation + 1 }

/-- How work that was awaited ends. -/
inductive Outcome : Type where
  /-- it succeeds -/
  | ok : Outcome
  /-- it fails with a message -/
  | failed : String → Outcome
  /-- its task panics -/
  | panicked : String → Outcome

/-- What a call finds outside. -/
structure EnrollmentEnv : Type where
  /-- a recording is under way -/
  recording : Bool
  /-- the speaker model is on disk -/
  modelReady : Bool
  /-- how the work ends -/
  outcome : Outcome

/-- Where a call is. -/
inductive EnrollmentTask : Type where
  /-- a task that does not exist -/
  | free : EnrollmentTask
  /-- a start, before it knows whether a recording is under way -/
  | startChecks : String → EnrollmentTask
  /-- a start, before it bumps the generation -/
  | startBumps : String → EnrollmentTask
  /-- a start of a generation, before it stops the previous session -/
  | startStops : ℕ → String → EnrollmentTask
  /-- a start of a generation, while its stream is being opened -/
  | startOpens : ℕ → String → EnrollmentTask
  /-- a start of a generation, before it installs its stream -/
  | startInstalls : ℕ → EnrollmentTask
  /-- the progress task of a generation, before it looks at the counter -/
  | progressLooks : ℕ → EnrollmentTask
  /-- the progress task of a generation, before it emits -/
  | progressEmits : ℕ → EnrollmentTask
  /-- a cancel, before it bumps the generation -/
  | cancelBumps : EnrollmentTask
  /-- a cancel, before it stops the session -/
  | cancelStops : EnrollmentTask
  /-- a finish, before it bumps the generation -/
  | finishBumps : EnrollmentTask
  /-- a finish, before it takes the session -/
  | finishTakes : EnrollmentTask
  /-- a finish, before the samples have become a centroid -/
  | finishProcesses : EnrollmentTask
  /-- a finish, before the profile is saved -/
  | finishSaves : EnrollmentTask
  /-- a finish, before it has read the status it returns -/
  | finishReads : EnrollmentTask
  /-- it has returned -/
  | returned : Except String Unit → EnrollmentTask

/-- A start, cancel or finish that has not returned. -/
def EnrollmentTask.inProgress : EnrollmentTask → Bool
  | free | progressLooks _ | progressEmits _ | returned _ => false
  | _ => true

/-- A call that has bumped the generation and not yet emptied the slot. -/
def EnrollmentTask.stops : EnrollmentTask → Bool
  | startStops _ _ | cancelStops | finishTakes => true
  | _ => false

/-- The calls from outside. -/
inductive EnrollmentCall : Type where
  /-- `start_self_voice_enrollment_with_sink` -/
  | start : Option String → EnrollmentCall
  /-- `cancel_self_voice_enrollment` -/
  | cancel : EnrollmentCall
  /-- `finish_self_voice_enrollment_with_pool` -/
  | finish : EnrollmentCall

/-- How a call from outside begins. -/
def begins : EnrollmentCall → Shared → Option (Shared × EnrollmentTask)
  | .start micDevice, s => some (s, .startChecks (micDevice.getD "default"))
  | .cancel, s => some (s, .cancelBumps)
  | .finish, s => some (s, .finishBumps)

/-- One step of a call. -/
def step (env : EnrollmentEnv) (s : Shared) :
    EnrollmentTask → Option (Tasks.Move Shared EnrollmentTask)
  | .free => none
  | .startChecks device =>
    if env.recording then
      some ⟨s, .returned (.error "Stop the current recording before enrolling your voice"), none⟩
    else if !env.modelReady then
      some ⟨s, .returned (.error ("The speaker model isn't downloaded yet — " ++
        "install it before enrolling your voice")), none⟩
    else some ⟨s, .startBumps device, none⟩
  | .startBumps device => some ⟨s.bump, .startStops s.bump.generation device, none⟩
  | .startStops generation device =>
    some ⟨s.stopCurrentSession, .startOpens generation device, none⟩
  | .startOpens generation device =>
    match env.outcome with
    | .ok => some ⟨s, .startInstalls generation, none⟩
    | .failed e =>
      some ⟨s, .returned (.error s!"Could not open microphone '{device}': {e}"), none⟩
    | .panicked e => some ⟨s, .returned (.error s!"Enrollment capture task failed: {e}"), none⟩
  | .startInstalls generation =>
    -- the counter is not looked at: a session that is there is replaced and its stream dropped
    some ⟨{ s with session := some ⟨generation⟩ }, .returned (.ok ()),
      some (.progressLooks generation)⟩
  | .progressLooks generation =>
    if s.generation = generation then some ⟨s, .progressEmits generation, none⟩
    else some ⟨s, .returned (.ok ()), none⟩
  | .progressEmits generation =>
    match env.outcome with
    | .ok => some ⟨s, .progressLooks generation, none⟩
    | _ => some ⟨s, .returned (.ok ()), none⟩
  | .cancelBumps => some ⟨s.bump, .cancelStops, none⟩
  | .cancelStops => some ⟨s.stopCurrentSession, .returned (.ok ()), none⟩
  | .finishBumps => some ⟨s.bump, .finishTakes, none⟩
  | .finishTakes =>
    match s.session with
    | none => some ⟨s, .returned (.error "No enrollment recording in progress"), none⟩
    | some _ => some ⟨s.stopCurrentSession, .finishProcesses, none⟩
  | .finishProcesses =>
    if !env.modelReady then
      some ⟨s, .returned (.error ("The speaker model isn't downloaded yet — " ++
        "install it before enrolling your voice")), none⟩
    else
      match env.outcome with
      | .ok => some ⟨s, .finishSaves, none⟩
      | .failed e => some ⟨s, .returned (.error e), none⟩
      | .panicked e =>
        some ⟨s, .returned (.error s!"Enrollment processing task failed: {e}"), none⟩
  | .finishSaves =>
    match env.outcome with
    | .ok => some ⟨s, .finishReads, none⟩
    | .failed e | .panicked e =>
      some ⟨s, .returned (.error s!"Failed to save your voice profile: {e}"), none⟩
  | .finishReads =>
    match env.outcome with
    | .ok => some ⟨s, .returned (.ok ()), none⟩
    | .failed e | .panicked e =>
      some ⟨s, .returned (.error s!"Failed to load your voice profile: {e}"), none⟩
  | .returned _ => none

/-- The program that the calls run. -/
def program : Tasks.Program Shared EnrollmentTask EnrollmentEnv EnrollmentCall where
  isFree task := match task with | .free => true | _ => false
  begins := begins
  step := step

/-- Nothing has been called. -/
def initial : Tasks.Config Shared EnrollmentTask := ⟨⟨0, none⟩, fun _ => .free⟩

/-- A capture that is under way is that of the latest generation. -/
def Latest (s : Shared) : Prop := ∀ session ∈ s.session, session.generation = s.generation

/-- **A cancelled enrollment stops listening**: whenever no start, cancel or finish is in progress,
what is captured is what the latest of them captures. -/
def StopsListening (c : Tasks.Config Shared EnrollmentTask) : Prop :=
  (∀ t, (c.tasks t).inProgress = false) → Latest c.shared

/-- A start installs only while its generation is still the latest. -/
def current : Tasks.Discipline Shared EnrollmentTask EnrollmentEnv EnrollmentCall where
  call _ _ := True
  callBeside _ _ := True
  step _ s a :=
    match a with
    | .startInstalls generation => s.generation = generation
    | _ => True
  stepBeside _ _ _ _ := True

/-! ## What a step does -/

/-- What one step does to what is shared, and to who is about to empty the slot. -/
theorem step_cases {env : EnrollmentEnv} {s : Shared} {a : EnrollmentTask}
    {move : Tasks.Move Shared EnrollmentTask} (h : step env s a = some move) :
    (move.shared = s ∧ (a.stops = true → s.session = none)) ∨
      (move.shared = s.bump ∧ move.task.stops = true) ∨
      move.shared = s.stopCurrentSession ∨
      ∃ generation, a = .startInstalls generation ∧
        move.shared = { s with session := some ⟨generation⟩ } := by
  cases a with
  | free => cases h
  | returned result => cases h
  | startChecks device =>
    rw [step] at h
    split_ifs at h <;> cases h <;> exact .inl ⟨rfl, nofun⟩
  | startBumps device => cases h; exact .inr (.inl ⟨rfl, rfl⟩)
  | startStops generation device => cases h; exact .inr (.inr (.inl rfl))
  | startOpens generation device =>
    rw [step] at h
    split at h <;> cases h <;> exact .inl ⟨rfl, nofun⟩
  | startInstalls generation => cases h; exact .inr (.inr (.inr ⟨generation, rfl, rfl⟩))
  | progressLooks generation =>
    rw [step] at h
    split_ifs at h <;> cases h <;> exact .inl ⟨rfl, nofun⟩
  | progressEmits generation =>
    rw [step] at h
    split at h <;> cases h <;> exact .inl ⟨rfl, nofun⟩
  | cancelBumps => cases h; exact .inr (.inl ⟨rfl, rfl⟩)
  | cancelStops => cases h; exact .inr (.inr (.inl rfl))
  | finishBumps => cases h; exact .inr (.inl ⟨rfl, rfl⟩)
  | finishTakes =>
    rw [step] at h
    split at h
    · next hnone =>
      cases h
      exact .inl ⟨rfl, fun _ => hnone⟩
    · cases h
      exact .inr (.inr (.inl rfl))
  | finishProcesses =>
    rw [step] at h
    split_ifs at h
    · cases h
      exact .inl ⟨rfl, nofun⟩
    · split at h <;> cases h <;> exact .inl ⟨rfl, nofun⟩
  | finishSaves =>
    rw [step] at h
    split at h <;> cases h <;> exact .inl ⟨rfl, nofun⟩
  | finishReads =>
    rw [step] at h
    split at h <;> cases h <;> exact .inl ⟨rfl, nofun⟩

/-! ## Runs -/

theorem latest_of_none {s : Shared} (h : s.session = none) : Latest s := by
  intro session hsession
  rw [h] at hsession
  cases hsession

theorem latest_stopCurrentSession (s : Shared) : Latest s.stopCurrentSession :=
  latest_of_none rfl

/-- A start of the latest generation installs the latest capture. -/
theorem latest_install {s : Shared} {generation : ℕ} (h : s.generation = generation) :
    Latest { s with session := some ⟨generation⟩ } := by
  rintro session ⟨⟩
  exact h.symm

/-- Only a call that is about to empty the slot leaves an older capture in it. -/
theorem absent_stops : Tasks.Absent (fun _ => True) program current
    (fun a => a.stops = true) Latest where
  free {a} hfree hstops := by
    cases a <;> first | (cases hstops; done) | cases hfree
  call _ _ hbegins _ hlatest := by
    have hsame : ∀ k s s' (a : EnrollmentTask), begins k s = some (s', a) → s' = s := by
      intro k s s' a h
      cases k <;> cases h <;> rfl
    exact hsame _ _ _ _ hbegins ▸ hlatest
  stay {c t child env move} _ hallow hstep _ hmoved hlatest := by
    rcases step_cases hstep with ⟨hsame, -⟩ | ⟨-, hstops⟩ | hstopped | ⟨generation, hat, hinstalled⟩
    · exact hsame ▸ hlatest
    · exact absurd hstops hmoved
    · exact hstopped ▸ latest_stopCurrentSession _
    · have hcurrent := hallow.1
      rw [hat] at hcurrent
      exact hinstalled ▸ latest_install hcurrent
  leave {c t child env move} _ hallow hstep hstops hmoved _ _ := by
    rcases step_cases hstep with ⟨hsame, hnone⟩ | ⟨-, hstops'⟩ | hstopped | ⟨generation, hat, -⟩
    · exact hsame ▸ latest_of_none (hnone hstops)
    · exact absurd hstops' hmoved
    · exact hstopped ▸ latest_stopCurrentSession _
    · rw [hat] at hstops
      cases hstops

theorem not_stops_of_not_inProgress {a : EnrollmentTask} (h : a.inProgress = false) :
    ¬ a.stops = true := by
  intro hstops
  cases a <;> first | (cases hstops; done) | cases h

/-- **Enrollment.** In every run in which each start installs its stream while its generation is
still the latest, no capture but the latest is left when no call is in progress. -/
theorem stopsListening_of_reaches {c : Tasks.Config Shared EnrollmentTask}
    (h : Tasks.Reaches program current initial c) : StopsListening c := fun hidle =>
  absent_stops.of_reaches (fun _ _ => trivial) (fun _ => latest_of_none rfl) h
    fun t => not_stops_of_not_inProgress (hidle t)

/-! ### Runs of two calls -/

instance (k : EnrollmentCall) (s : Shared) : Decidable (current.call k s) :=
  inferInstanceAs (Decidable True)

instance (k : EnrollmentCall) (b : EnrollmentTask) : Decidable (current.callBeside k b) :=
  inferInstanceAs (Decidable True)

instance (env : EnrollmentEnv) (s : Shared) : ∀ a, Decidable (current.step env s a)
  | .startInstalls generation => inferInstanceAs (Decidable (s.generation = generation))
  | .free | .startChecks _ | .startBumps _ | .startStops _ _ | .startOpens _ _
  | .progressLooks _ | .progressEmits _ | .cancelBumps | .cancelStops | .finishBumps
  | .finishTakes | .finishProcesses | .finishSaves | .finishReads | .returned _ =>
    inferInstanceAs (Decidable True)

instance (env : EnrollmentEnv) (s : Shared) (a b : EnrollmentTask) :
    Decidable (current.stepBeside env s a b) :=
  inferInstanceAs (Decidable True)

/-- No recording is under way, the model is there, and the work succeeds. -/
def goes : EnrollmentEnv := ⟨false, true, .ok⟩

/-- A task takes a number of steps. -/
def takes (t child : ℕ) (n : ℕ) : List (Tasks.Label EnrollmentEnv EnrollmentCall) :=
  List.replicate n (.run t goes child)

/-- A start until its stream is open. -/
def opened (t : ℕ) : List (Tasks.Label EnrollmentEnv EnrollmentCall) :=
  .call t (.start none) :: takes t 5 4

/-- A capture begins, is cancelled, and begins again. -/
def startedAgain : List (Tasks.Label EnrollmentEnv EnrollmentCall) :=
  opened 0 ++ takes 0 3 1 ++ .call 1 .cancel :: takes 1 5 2 ++ opened 2 ++ takes 2 4 1

/-- A start is cancelled while its stream is being opened. -/
def cancelledWhileOpening : List (Tasks.Label EnrollmentEnv EnrollmentCall) :=
  opened 0 ++ .call 1 .cancel :: takes 1 5 2 ++ takes 0 3 1

/-- Two starts, of which the earlier one opens its stream later. -/
def overtaken : List (Tasks.Label EnrollmentEnv EnrollmentCall) :=
  opened 0 ++ opened 1 ++ takes 1 4 1 ++ takes 0 3 1

/-- A capture after a cancelled one. -/
theorem stopsListening_startedAgain : ∃ c : Tasks.Config Shared EnrollmentTask,
    Tasks.Program.runBelow program current 6 initial startedAgain = some c ∧
      c.shared.session = some ⟨3⟩ ∧ StopsListening c :=
  ⟨_, rfl, rfl, stopsListening_of_reaches (Tasks.Reaches.of_runBelow (fun _ => trivial)
    (fun _ _ _ => trivial) (fun _ _ => rfl) .refl
    (rfl : Tasks.Program.runBelow program current 6 initial startedAgain = some _))⟩

/-- A run of the first six tasks that ends with no call in progress and an older capture. -/
theorem not_stopsListening_of_runBelow (labels : List (Tasks.Label EnrollmentEnv EnrollmentCall))
    {c : Tasks.Config Shared EnrollmentTask}
    (hrun : Tasks.Program.runBelow program .free 6 initial labels = some c)
    (hidle : ∀ t < 6, (c.tasks t).inProgress = false)
    (hold : c.shared = ⟨2, some ⟨1⟩⟩) :
    Tasks.Reaches program .free initial c ∧ ¬ StopsListening c := by
  refine ⟨Tasks.Reaches.of_runBelow_free (fun _ _ => rfl) hrun, fun hstops => ?_⟩
  have hlatest := hstops (Tasks.Program.forall_of_runBelow (P := fun a => a.inProgress = false)
    hrun (fun _ _ => rfl) hidle)
  rw [hold] at hlatest
  exact absurd (hlatest ⟨1⟩ rfl) (by decide)

/-- In general a capture can be left over: that of a start which was cancelled while it opened its
stream, and that of a start which another one overtook. -/
theorem not_stopsListening_cancelled :
    (∃ c, Tasks.Program.runBelow program .free 6 initial cancelledWhileOpening = some c ∧
      Tasks.Reaches program .free initial c ∧ ¬ StopsListening c) ∧
    ∃ c, Tasks.Program.runBelow program .free 6 initial overtaken = some c ∧
      Tasks.Reaches program .free initial c ∧ ¬ StopsListening c :=
  ⟨⟨_, rfl, not_stopsListening_of_runBelow cancelledWhileOpening rfl (by decide) rfl⟩,
    ⟨_, rfl, not_stopsListening_of_runBelow overtaken rfl (by decide) rfl⟩⟩

end Enrollment

end MeetilyLocal
