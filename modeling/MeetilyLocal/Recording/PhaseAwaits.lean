import MeetilyLocal.Recording.PhaseTable

/-!
# Runs that are interrupted at awaits

A pause or a resume does not wait between its change of the manager and that of the phase, nor does
a fatal error between its change of the phase and the stop it spawns, so no other task comes between
these (`RecordingService.awaits`). In an undisturbed run, besides, no stop begins and nothing is
paused while a start is under way; starts and stops exclude each other there
(`RecordingService.exclusive`), and `SeenStep` lists what a step can do to what is seen.
-/

namespace MeetilyLocal

/-- The task has changed the manager or the phase, and goes on without waiting: to the phase, or to
the stop. -/
def ServiceTask.betweenAwaits : ServiceTask → Bool
  | .toggle _ .emitEvent | .toggle _ .emitPhase | .report _ _ .spawnStop => true
  | _ => false

/-- A start that has passed its first check and has yet to change the phase for the last time. -/
def ServiceTask.startsUp : ServiceTask → Bool
  | .start _ .checkRecording => true
  | a => a.flow == .permitted || a.flow == .starting || a.flow == .started

/-- A stop that has taken the manager out, be it for a while. -/
def StopPc.hasTaken : StopPc → Bool
  | .checkManager | .loadStop | .tryStop | .readPhase | .readMeeting | .emitStopping | .take => false
  | _ => true

/-- A start that has yet to store its manager, or a stop that has taken one out: nothing in the slot
records. -/
def ServiceTask.silent : ServiceTask → Bool
  | .start _ pc => pc.flow == .permitted || pc.flow == .starting
  | .stop _ pc => pc.hasTaken
  | _ => false

/-- Nothing in the slot records. -/
def PhaseView.Quiet (v : PhaseView) : Prop := ∀ paused, v.live ≠ some (true, paused)

/-- What a step can do to what is seen in any run in which a start and a pause have their events
emitted; it may begin a flow, or be a fatal error. -/
inductive SeenStep : Bool → PhaseView → Flow → PhaseView → Flow → Prop where
  /-- what it can do in an orderly one -/
  | phase {begins : Bool} {v v' : PhaseView} {f f' : Flow} : PhaseStep begins v f v' f' →
      SeenStep begins v f v' f'
  /-- a stop changes to `Stopping` though there is no manager -/
  | stopBegins {v : PhaseView} : SeenStep true v .rest (v.emit .stopping) .stopping
  /-- there is a fatal error though there is none -/
  | errs {v : PhaseView} : SeenStep true v .rest (v.emit .error) .rest
  /-- a recording is paused or resumed after a fatal error -/
  | toggles {v : PhaseView} {resume : Bool} : v.live = some (true, resume) →
      SeenStep true v .rest { v with live := some (true, !resume) } (.toggled resume)
  /-- a stop whose event was not emitted returns -/
  | untold {v : PhaseView} : SeenStep false v .saving v .rest

namespace SeenStep

variable {begins : Bool} {v v' : PhaseView} {f f' : Flow}

/-- A manager that records is seen where it was stored, or was there before. -/
theorem live (h : SeenStep begins v f v' f') {paused : Bool} (hlive : v'.live = some (true, paused)) :
    f = .starting ∨ ∃ paused, v.live = some (true, paused) := by
  cases h with
  | phase h => exact h.live hlive
  | toggles hbefore => exact .inr ⟨_, hbefore⟩
  | _ => exact .inr ⟨paused, hlive⟩

/-- A stop that has begun leaves nothing in the slot that records. -/
theorem quiet_of_stop (h : SeenStep begins v f v' f')
    (hf : f = .stopping ∨ f = .finalising ∨ f = .saving) (hquiet : v.Quiet) : v'.Quiet := by
  intro paused hlive
  obtain rfl | ⟨paused', hbefore⟩ := h.live hlive
  · obtain hf | hf | hf := hf <;> cases hf
  · exact hquiet paused' hbefore

/-- So does a start that has yet to store its manager. -/
theorem quiet_of_start (h : SeenStep begins v f v' f') (hf' : f' = .permitted ∨ f' = .starting)
    (hquiet : f = .permitted ∨ f = .starting → v.Quiet) : v'.Quiet := by
  cases h with
  | phase h =>
    cases h with
    | stays => exact hquiet hf'
    | permits hnone => exact hnone
    | startBegins => exact hquiet (.inl rfl)
    | _ => obtain hf' | hf' := hf' <;> cases hf'
  | _ => obtain hf' | hf' := hf' <;> cases hf'

/-- The manager that it has stored records. -/
theorem live_of_started (h : SeenStep begins v f v' .started)
    (hlive : f = .started → v.live = some (true, false)) : v'.live = some (true, false) := by
  cases h with
  | phase h =>
    cases h with
    | stays => exact hlive rfl
    | stores => rfl

/-- What is paused or resumed is so. -/
theorem live_of_toggled {resume : Bool} (h : SeenStep begins v f v' (.toggled resume))
    (hlive : f = .toggled resume → v.live = some (true, !resume)) :
    v'.live = some (true, !resume) := by
  cases h with
  | phase h =>
    cases h with
    | stays => exact hlive rfl
    | toggles => rfl
  | toggles => rfl

/-- What is in the slot stays as it is but for a start, a stop or a pause. -/
theorem live_eq (h : SeenStep begins v f v' f') (hstarting : f ≠ .starting) (hstopping : f ≠ .stopping)
    (hfinalising : f ≠ .finalising) (htoggled : begins = true → ∀ resume, f' ≠ .toggled resume) :
    v'.live = v.live := by
  cases h with
  | phase h =>
    cases h with
    | stores => exact absurd rfl hstarting
    | takes | putsBack => exact absurd rfl hstopping
    | takesAll => exact absurd rfl hfinalising
    | toggles => exact absurd rfl (htoggled rfl _)
    | _ => rfl
  | toggles => exact absurd rfl (htoggled rfl _)
  | _ => rfl

end SeenStep

/-! ## What the phase shows -/

theorem ne_togglePhase {phase : RecordingPhase} (h : phase ≠ .recording) (h' : phase ≠ .paused)
    (resume : Bool) : phase ≠ togglePhase resume := by
  rcases resume with _ | _
  · exact h'
  · exact h

namespace PhaseView

/-- A fatal error that is shown is not of something that records. -/
def Answered (v : PhaseView) : Prop := v.phase = .error → v.Quiet

/-- The phase does not show what is not so. -/
structure Shown (v : PhaseView) : Prop where
  /-- what records is shown, but for a fatal error -/
  live : ∀ paused, v.live = some (true, paused) →
    v.phase = togglePhase (!paused) ∨ v.phase = .error
  /-- what is shown to record does -/
  shown : ∀ paused, v.phase = togglePhase (!paused) → v.live = some (true, paused)

variable {v : PhaseView}

/-- Where nothing records, this is about the phase. -/
theorem shown_of_quiet (h : v.Quiet) (hrecording : v.phase ≠ .recording)
    (hpaused : v.phase ≠ .paused) : v.Shown :=
  ⟨fun paused hlive => absurd hlive (h paused),
    fun _ hshown => absurd hshown (ne_togglePhase hrecording hpaused _)⟩

/-- Where something records, about what it shows. -/
theorem shown_of_live {resume : Bool} (h : v.live = some (true, !resume))
    (hphase : v.phase = togglePhase resume) : v.Shown := by
  refine ⟨fun paused hlive => .inl ?_, fun paused hshown => ?_⟩
  · obtain rfl : (!resume) = paused := by simpa [h] using hlive
    rw [hphase, Bool.not_not]
  · rw [h]
    rcases resume with _ | _ <;> rcases paused with _ | _ <;>
      first | rfl | (rw [hphase] at hshown; cases hshown)

/-- A fatal error shows nothing that is not so. -/
theorem shown_of_error (h : v.phase = .error) : v.Shown := by
  refine ⟨fun _ _ => .inr h, fun paused hshown => ?_⟩
  rw [h] at hshown
  exact absurd hshown (ne_togglePhase (by decide) (by decide) _)

end PhaseView

/-- A flow in which the phase has yet to be changed to what is so. -/
def Flow.owes : Flow → Bool
  | .starting | .started | .stopping | .toggled _ => true
  | _ => false

/-- What a step shows after which the task owes nothing. -/
theorem SeenStep.shown {begins : Bool} {v v' : PhaseView} {f f' : Flow}
    (h : SeenStep begins v f v' f') (hafter : f'.owes = false) (hbefore : f.owes = false → v.Shown)
    (hquiet : f = .starting ∨ f = .finalising ∨ f = .saving → v.Quiet)
    (hquiet' : f' = .finalising → v'.Quiet)
    (hstarted : f = .started → v.live = some (true, false))
    (htoggled : ∀ resume, f = .toggled resume → v.live = some (true, !resume)) : v'.Shown := by
  cases h with
  | phase h =>
    cases h with
    | stays => exact hbefore hafter
    | permits => exact hbefore rfl
    | startFails => exact PhaseView.shown_of_quiet (hquiet (.inl rfl)) nofun nofun
    | startEnds =>
      have hlive : (v.emit .recording).live = some (true, !true) := hstarted rfl
      exact PhaseView.shown_of_live hlive rfl
    | finalises => exact PhaseView.shown_of_quiet (hquiet' rfl) nofun nofun
    | takesAll =>
      have hshown := hbefore rfl
      have hnone := hquiet (.inr (.inl rfl))
      refine PhaseView.shown_of_quiet nofun (fun hphase => ?_) fun hphase => ?_
      · exact hnone _ (hshown.shown false hphase)
      · exact hnone _ (hshown.shown true hphase)
    | stopEnds => exact PhaseView.shown_of_quiet (hquiet (.inr (.inr rfl))) nofun nofun
    | toggleEnds => exact PhaseView.shown_of_live (htoggled _ rfl) rfl
    | errs => exact PhaseView.shown_of_error rfl
    | _ => cases hafter
  | errs => exact PhaseView.shown_of_error rfl
  | untold => exact hbefore rfl
  | _ => cases hafter

namespace SlotStep

variable {σ σ' : Slot} {r r' : Role}

/-- Who has `START_IN_PROGRESS` had it, or wanted it. -/
theorem holdsStart_before (h : SlotStep σ r σ' r') (hafter : r'.holdsStart = true) :
    r.holdsStart = true ∨ r = .startTries := by
  cases h with
  | stays => exact .inl hafter
  | startAcquires => exact .inr rfl
  | _ => first | exact .inl rfl | cases hafter

/-- Who has `STOP_IN_PROGRESS` had it, or wanted it where it was clear. -/
theorem holdsStop_before (h : SlotStep σ r σ' r') (hafter : r'.holdsStop = true) :
    r.holdsStop = true ∨ (r = .stopTries ∧ σ.stopInProgress = false) := by
  cases h with
  | stays => exact .inl hafter
  | stopAcquires hclear => exact .inr ⟨rfl, hclear⟩
  | _ => first | exact .inl rfl | cases hafter

end SlotStep

namespace RecordingService

variable {env : Env} {s : Service} {a b : ServiceTask} {move : Tasks.Move Service ServiceTask}
  {c : Tasks.Config Service ServiceTask}

/-! ## Runs that are interrupted at awaits -/

/-- A stop that is about to begin, or a pause or a resume that is about to change the manager. -/
def intrudes (s : Service) : ServiceTask → Bool
  | .stop _ .tryStop => !s.stopInProgress
  | .toggle resume .toggle => s.manager.map s.face == some (true, resume)
  | _ => false

/-- A start, a pause or a resume that is about to emit its event, without which it does not go on to
its last phase. -/
def announces : ServiceTask → Bool
  | .start _ .emitStarted | .toggle _ .emitEvent => true
  | _ => false

/-- Tasks are interrupted anywhere but between awaits. -/
def awaits : Tasks.Discipline Service ServiceTask Env ServiceCall where
  call _ _ := True
  callBeside _ _ := True
  step _ _ _ := True
  stepBeside _ _ _ b := b.betweenAwaits = false

/-- Besides, events are emitted, and no stop begins and nothing is paused or resumed beside a start
that is under way. -/
def undisturbed : Tasks.Discipline Service ServiceTask Env ServiceCall where
  call _ _ := True
  callBeside _ _ := True
  step env _ a := announces a = true → env.ok = true
  stepBeside _ s a b := b.betweenAwaits = false ∧ (intrudes s a = true → b.startsUp = false)

/-- A start or a stop is running. -/
def runs : ServiceTask → Bool
  | .start _ _ | .stop _ _ => true
  | _ => false

/-- While no start and no stop is running, and no task is between awaits, the phase is `Recording`
or `Paused` exactly when the manager in the slot records, and is not paused or paused. -/
def TellsTruth (c : Tasks.Config Service ServiceTask) : Prop :=
  (∀ t, runs (c.tasks t) = false) → (∀ t, (c.tasks t).betweenAwaits = false) →
    (c.shared.phase.phase = .recording ↔
      ∃ m, c.shared.manager = some m ∧ (c.shared.sessions m).state.isRecording = true ∧
        (c.shared.sessions m).state.isPaused = false) ∧
    (c.shared.phase.phase = .paused ↔
      ∃ m, c.shared.manager = some m ∧ (c.shared.sessions m).state.isRecording = true ∧
        (c.shared.sessions m).state.isPaused = true)

/-! ## What is seen of a step -/

/-- A step that tells nothing, needs no manager and toggles none is as in an orderly run. -/
theorem orderly_of_silent (htells : tells a = false) (hneeds : needsManager a = false)
    (htoggles : atToggle a = false) : orderly.step env s a := by
  simp [orderly, htells, hneeds, htoggles]

/-- What a step does to what is seen. -/
theorem seenStep_of_step (h : step env s a = some move) (htold : announces a = true → env.ok = true)
    (hs : groundwork.shared s) (hown : groundwork.own s a) :
    SeenStep (beginsFlow s a) s.view a.flow move.shared.view move.task.flow := by
  by_cases hallowed : orderly.step env s a
  · exact .phase (phaseStep_of_groundwork h hallowed hs hown)
  cases a with
  | start pool pc =>
    refine absurd ⟨fun htells => ?_, by simp [needsManager], by simp [atToggle]⟩ hallowed
    cases pc <;> first | exact htold rfl | cases htells
  | stop call pc =>
    cases pc with
    | emitStopping => cases h; exact .stopBegins
    | emitStopped =>
      cases h
      rcases env.ok with _ | _
      · exact .untold
      · exact .phase .stays
    | _ => exact absurd (orderly_of_silent rfl rfl rfl) hallowed
  | toggle resume pc =>
    cases pc with
    | toggle =>
      by_cases hlive : s.view.live = some (true, resume)
      · obtain ⟨m, hm, hface⟩ := Option.map_eq_some_iff.mp hlive
        obtain ⟨hrecords, hpaused⟩ := Prod.mk.inj hface
        have hbegins : beginsFlow s (.toggle resume .toggle) = true := by
          simp [beginsFlow, hm, hface]
        rw [step] at h
        rcases toggleStep_cases h with ⟨-, hnot⟩ | ⟨m', hm', -, -, rfl⟩
        · exact absurd hface (hnot m hm)
        · obtain rfl := Option.some.inj (hm.symm.trans hm')
          rw [hbegins]
          show SeenStep true s.view .rest (Service.view _) (.toggled resume)
          rw [Service.view_toggled hm hrecords]
          exact .toggles hlive
      · refine absurd ⟨by simp [tells], by simp [needsManager], fun _ hbegins => ?_⟩ hallowed
        exact absurd (by simpa [beginsFlow, Service.view] using hbegins) hlive
    | emitEvent =>
      exact absurd ⟨fun _ => htold rfl, by simp [needsManager], by simp [atToggle]⟩ hallowed
    | _ => exact absurd (orderly_of_silent rfl rfl rfl) hallowed
  | report m error pc =>
    cases pc with
    | emitError => cases h; exact .errs
    | _ => exact absurd (orderly_of_silent rfl rfl rfl) hallowed
  | _ => exact absurd (orderly_of_silent rfl rfl rfl) hallowed

/-! ## Starts and stops exclude each other -/

theorem holdsStart_of_startsUp (h : a.startsUp = true) : a.role.holdsStart = true := by
  cases a with
  | start pool pc => cases pc <;> first | rfl | cases h
  | stop call pc => cases pc <;> cases h
  | toggle resume pc => cases pc <;> cases h
  | _ => cases h

theorem holdsStop_of_silent {call : StopCall} {pc : StopPc} (h : pc.hasTaken = true) :
    (ServiceTask.stop call pc).role.holdsStop = true := by
  cases pc <;> first | rfl | cases h

theorem holdsStop_of_flow (h : a.flow = .stopping ∨ a.flow = .finalising ∨ a.flow = .saving) :
    a.role.holdsStop = true := by
  cases a with
  | start pool pc => cases pc <;> obtain h | h | h := h <;> cases h
  | stop call pc => cases pc <;> first | rfl | (obtain h | h | h := h <;> cases h)
  | toggle resume pc => cases pc <;> obtain h | h | h := h <;> cases h
  | _ => obtain h | h | h := h <;> cases h

/-- A start gets up where it finds no stop in progress. -/
theorem startsUp_of_step (h : step env s a = some move) (hup : move.task.startsUp = true) :
    a.startsUp = true ∨ s.stopInProgress = false := by
  have hstart : a.role.holdsStart = true ∨ a.role = .startTries :=
    (slotStep_of_step h).holdsStart_before (holdsStart_of_startsUp hup)
  cases a with
  | start pool pc =>
    cases pc with
    | tryStart =>
      rw [step, startStep] at h
      split at h <;> cases h <;> cases hup
    | loadStop =>
      cases h
      rcases hstop : s.stopInProgress with _ | _
      · exact .inr rfl
      · rw [hstop] at hup
        cases hup
    | dropManager m =>
      obtain ⟨-, h⟩ := of_waitFor h
      cases h
      cases hup
    | release => cases h; cases hup
    | _ => exact .inl rfl
  | stop call pc => cases pc <;> obtain hstart | hstart := hstart <;> cases hstart
  | _ => obtain hstart | hstart := hstart <;> cases hstart

/-- A stop gets the flag where it is clear. -/
theorem holdsStop_of_step (h : step env s a = some move) (hstop : move.task.role.holdsStop = true) :
    a.role.holdsStop = true ∨ ∃ call, a = .stop call .tryStop ∧ s.stopInProgress = false := by
  obtain hbefore | ⟨htries, hclear⟩ := (slotStep_of_step h).holdsStop_before hstop
  · exact .inl hbefore
  · cases a with
    | start pool pc => cases pc <;> cases htries
    | stop call pc =>
      cases pc with
      | tryStop => exact .inr ⟨call, rfl, hclear⟩
      | _ => cases htries
    | _ => cases htries

/-- A start that is under way and a stop that has begun are not beside each other. -/
def exclusive : Tasks.Assertions Service ServiceTask where
  shared _ := True
  own _ _ := True
  pair a b := (a.startsUp = true → b.role.holdsStop = false) ∧
    (b.startsUp = true → a.role.holdsStop = false)

theorem exclusive_of_rest (h : a.role.holdsStart = false) (h' : a.role.holdsStop = false) :
    exclusive.pair a b := by
  refine ⟨fun hup => ?_, fun _ => h'⟩
  rw [holdsStart_of_startsUp hup] at h
  cases h

theorem exclusive_of_begins {k : ServiceCall} {s' : Service} (h : begins k s = some (s', a)) :
    exclusive.pair a b := by
  obtain ⟨-, hrole⟩ := slot_begins h
  refine exclusive_of_rest ?_ ?_ <;>
    obtain hrole | hrole | hrole := hrole <;> rw [hrole] <;> rfl

theorem exclusive_of_spawned {child : ServiceTask} (h : step env s a = some move)
    (hspawned : move.spawned = some child) : exclusive.pair child b := by
  refine exclusive_of_rest ?_ ?_ <;>
    obtain hrole | hrole := role_spawned h hspawned <;> rw [hrole] <;> rfl

theorem exclusive_stable : Tasks.Assertions.Stable flags exclusive program undisturbed where
  symm h := ⟨h.2, h.1⟩
  call _ _ _ := ⟨trivial, trivial⟩
  callBeside _ _ _ _ hbegins := ⟨trivial, exclusive_of_begins hbegins⟩
  step _ := ⟨trivial, trivial⟩
  beside := by
    intro env s a b move hbeside
    obtain ⟨⟨-, -, -, heq⟩, ⟨-, hintrudes⟩, ⟨⟨-, hflag⟩, -⟩, -, hpair⟩ := hbeside
    refine ⟨trivial, fun hup => ?_, fun hup => ?_⟩
    · obtain hbefore | hclear := startsUp_of_step heq hup
      · exact hpair.1 hbefore
      · -- the flag of a stop that has begun is set
        by_contra hstop
        have hset : s.stopInProgress = true := hflag (Bool.not_eq_false _ ▸ hstop)
        rw [hclear] at hset
        cases hset
    · by_contra hstop
      obtain hbefore | ⟨call, rfl, hclear⟩ := holdsStop_of_step heq (Bool.not_eq_false _ ▸ hstop)
      · rw [hpair.2 hup] at hbefore
        cases hbefore
      · rw [hintrudes (by simp [intrudes, hclear])] at hup
        cases hup
  spawn {env s a child move} htaken hspawned := by
    have hpair := exclusive_of_spawned (b := move.task) htaken.eq hspawned
    exact ⟨trivial, hpair.2, hpair.1⟩
  spawnBeside hbeside hspawned := exclusive_of_spawned hbeside.eq hspawned

theorem hold_exclusive (h : Tasks.Reaches program undisturbed start c) : exclusive.Hold c := by
  refine exclusive_stable.of_reaches (fun _ => hold_flags) ?_ h
  exact ⟨trivial, fun _ => trivial, fun _ _ _ => exclusive_of_rest rfl rfl⟩

end RecordingService

end MeetilyLocal
