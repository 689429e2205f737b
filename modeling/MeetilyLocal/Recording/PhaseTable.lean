import MeetilyLocal.Library.Turns
import MeetilyLocal.Recording.ManagerSafety
import MeetilyLocal.Recording.PhaseFlows

/-!
# The phase follows the table

`set_phase` makes every move, and the flows make theirs without looking at the phase. Where the
runs are orderly the flows take turns (`RecordingService.turns`): between them the phase shows what
is in the slot, inside each it is where the flow has put it, and so every move is one that
`next_phase` allows (`RecordingService.followsTable_of_reaches`).
-/

namespace MeetilyLocal

namespace PhaseView

/-- Between flows the phase shows the manager in the slot, or its fatal error. -/
def Rest (v : PhaseView) : Prop :=
  match v.live with
  | none => v.phase = .idle
  | some (recording, paused) =>
    recording = true ∧ (v.phase = .error ∨ v.phase = togglePhase !paused)

/-- Inside a flow it is where the flow has put it. -/
def Fits (v : PhaseView) : Flow → Prop
  | .starting => v.phase = .starting ∧ v.live = none
  | .started => v.phase = .starting ∧ v.live = some (true, false)
  | .stopping => v.phase = .stopping
  | .finalising => v.phase = .finalising
  | .saving => v.phase = .finalising ∧ v.live = none
  | .toggled resume => v.phase = togglePhase (!resume) ∧ v.live = some (true, !resume)
  | _ => True

end PhaseView

namespace PhaseStep

variable {begins : Bool} {v v' : PhaseView} {f f' : Flow}

/-- A task that comes to be in a flow has begun it. -/
theorem begins_of_enter (h : PhaseStep begins v f v' f') (hbefore : f.underWay = false)
    (hafter : f'.underWay = true) : begins = true := by
  cases h with
  | stays => exact absurd (hbefore.symm.trans hafter) nofun
  | permits => cases hafter
  | startBegins => rfl
  | stopBegins => rfl
  | toggles => rfl
  | errs => rfl
  | _ => cases hbefore

/-- A manager that records is seen where it was stored, or was there before. -/
theorem live (h : PhaseStep begins v f v' f') {paused : Bool}
    (hlive : v'.live = some (true, paused)) :
    f = .starting ∨ ∃ paused, v.live = some (true, paused) := by
  cases h with
  | stores => exact .inl rfl
  | takes => cases hlive
  | putsBack => cases hlive
  | takesAll => cases hlive
  | toggles hbefore => exact .inr ⟨_, hbefore⟩
  | _ => exact .inr ⟨paused, hlive⟩

/-- What a start finds when it gets past `begin_start_phase`. -/
theorem permitted (h : PhaseStep begins v f v' .permitted)
    (hbefore : f = .permitted → ∀ paused, v.live ≠ some (true, paused)) (paused : Bool) :
    v'.live ≠ some (true, paused) := by
  cases h with
  | stays => exact hbefore rfl paused
  | permits hidle => exact hidle paused

/-- A flow begins where the phase is at rest. -/
theorem enter (h : PhaseStep begins v f v' f') (hbefore : f.underWay = false)
    (hafter : f'.underWay = true) (hrest : v.Rest)
    (hpermitted : f = .permitted → ∀ paused, v.live ≠ some (true, paused)) : v'.Fits f' := by
  cases h with
  | stays => exact absurd (hbefore.symm.trans hafter) nofun
  | permits => cases hafter
  | startBegins =>
    refine ⟨rfl, ?_⟩
    -- at rest a manager in the slot records
    rcases hlive : v.live with _ | ⟨recording, paused⟩
    · exact hlive
    · rw [PhaseView.Rest, hlive] at hrest
      exact absurd (hrest.1 ▸ hlive) (hpermitted rfl paused)
  | stopBegins => rfl
  | @toggles _ resume hlive herror =>
    rw [PhaseView.Rest, hlive] at hrest
    exact ⟨hrest.2.resolve_left herror, rfl⟩
  | errs => cases hafter
  | _ => cases hbefore

/-- It goes on from where it is. -/
theorem within (h : PhaseStep begins v f v' f') (hbefore : f.underWay = true)
    (hafter : f'.underWay = true) (hfits : v.Fits f) : v'.Fits f' := by
  cases h with
  | stays => exact hfits
  | stores => exact ⟨hfits.1, rfl⟩
  | takes => exact hfits
  | putsBack => exact hfits
  | finalises => rfl
  | takesAll => exact ⟨hfits, rfl⟩
  | _ => first | (cases hbefore; done) | cases hafter

/-- It ends where the phase is at rest. -/
theorem leave (h : PhaseStep begins v f v' f') (hbefore : f.underWay = true)
    (hafter : f'.underWay = false) (hfits : v.Fits f) : v'.Rest := by
  cases h with
  | stays => exact absurd (hbefore.symm.trans hafter) nofun
  | startFails =>
    rw [PhaseView.Rest, PhaseView.emit, hfits.2]
  | startEnds =>
    rw [PhaseView.Rest, PhaseView.emit, hfits.2]
    exact ⟨rfl, .inr rfl⟩
  | stopEnds =>
    rw [PhaseView.Rest, PhaseView.emit, hfits.2]
  | toggleEnds =>
    rw [PhaseView.Rest, PhaseView.emit, hfits.2]
    exact ⟨rfl, .inr (by rw [Bool.not_not])⟩
  | _ => first | (cases hbefore; done) | cases hafter

/-- Outside of the flows there are only fatal errors. -/
theorem outside (h : PhaseStep begins v f v' f') (hbefore : f.underWay = false)
    (hafter : f'.underWay = false) : (v.Rest → v'.Rest) ∧ (begins = false → v' = v) := by
  cases h with
  | stays => exact ⟨id, fun _ => rfl⟩
  | permits => exact ⟨id, fun _ => rfl⟩
  | errs hlive =>
    refine ⟨fun hrest => ?_, nofun⟩
    obtain ⟨⟨recording, paused⟩, hsome⟩ := Option.isSome_iff_exists.mp hlive
    rw [PhaseView.Rest, hsome] at hrest
    rw [PhaseView.Rest, PhaseView.emit, hsome]
    exact ⟨hrest.1, .inl rfl⟩
  | _ => first | (cases hbefore; done) | cases hafter

/-- **The table.** A move is one that the table has: a flow begins from rest and goes on from where
it has put the phase. -/
theorem allowed (h : PhaseStep begins v f v' f') (hrest : f.underWay = false → begins = true → v.Rest)
    (hpermitted : f = .permitted → ∀ paused, v.live ≠ some (true, paused)) (hfits : v.Fits f)
    (hseq : v'.seq ≠ v.seq) : v.phase.allowed v'.phase = true := by
  cases h with
  | startBegins =>
    have hstarting := (PhaseStep.startBegins (v := v)).enter rfl rfl (hrest rfl rfl) hpermitted
    have hidle : v.phase = .idle := by
      have hrest := hrest rfl rfl
      rwa [PhaseView.Rest, show v.live = none from hstarting.2] at hrest
    rw [hidle]
    rfl
  | startFails => rw [hfits.1]; rfl
  | startEnds => rw [hfits.1]; rfl
  | stopBegins hlive =>
    obtain ⟨⟨recording, paused⟩, hsome⟩ := Option.isSome_iff_exists.mp hlive
    have hrest := hrest rfl rfl
    rw [PhaseView.Rest, hsome] at hrest
    rcases hrest.2 with herror | hshown
    · rw [herror]
      rfl
    · rw [hshown]
      rcases paused with _ | _ <;> rfl
  | finalises => rw [show v.phase = .stopping from hfits]; rfl
  | stopEnds => rw [hfits.1]; rfl
  | @toggleEnds _ resume =>
    rw [hfits.1]
    rcases resume with _ | _ <;> rfl
  | errs => rfl
  | _ => exact absurd rfl hseq

end PhaseStep

/-- What a task is about to stop is in its hands. -/
theorem ServiceTask.owns_of_silences {a : ServiceTask} {m : SessionId}
    (h : a.silences = some m) : a.role.owns = some m := by
  cases a with
  | start pool pc => cases pc <;> first | (cases h; done) | exact h
  | stop call pc => cases pc <;> first | (cases h; done) | exact h
  | _ => cases h

/-- A start has a manager that records because it has begun it, or had it. -/
theorem SlotStep.records {σ σ' : Slot} {r : Role} {m : SessionId}
    (h : SlotStep σ r σ' (.startRecords m)) :
    (r = .startOwns m ∧ σ'.recording m = true) ∨ (r = .startRecords m ∧ σ' = σ) := by
  cases h with
  | stays => exact .inr ⟨rfl, rfl⟩
  | begins => exact .inl ⟨rfl, Slot.recording_setRecording_self⟩

namespace RecordingService

variable {env : Env} {s : Service} {a : ServiceTask} {m : SessionId}
  {move : Tasks.Move Service ServiceTask}

/-! ## New managers -/

/-- A step leaves what a session that another task has shows. -/
theorem face_of_step {b : ServiceTask} (h : step env s a = some move)
    (howns : b.role.owns = some m) (howned : b.role.Owned s.slot) (hapart : a.role.Apart b.role) :
    move.shared.face m = s.face m := by
  have hchange := stateChange_of_step h m
  obtain ⟨hknown, hslot⟩ := howned m howns
  rw [Service.face, Service.face]
  generalize (move.shared.sessions m).state = y at hchange ⊢
  cases hchange with
  | toggles _ hin => exact absurd hin hslot
  | created hnew => exact absurd hnew (Nat.ne_of_lt hknown)
  | begun hrole => exact absurd howns (hapart m (by rw [hrole]; rfl))
  | stopped hsilences => exact absurd howns (hapart m (ServiceTask.owns_of_silences hsilences))
  | cleaned hmine => exact absurd howns (hapart m hmine)
  | replaced hin => exact absurd hin hslot
  | _ => rfl

/-- Nor is a session paused by the task that has it. -/
theorem unpaused_of_step (h : step env s a = some move) (howns : a.role.owns = some m)
    (howned : a.role.Owned s.slot) (hpaused : (s.sessions m).state.isPaused = false) :
    (move.shared.sessions m).state.isPaused = false := by
  have hchange := stateChange_of_step h m
  generalize (move.shared.sessions m).state = y at hchange ⊢
  cases hchange with
  | toggles _ hin => exact absurd hin (howned m howns).2
  | _ => first | rfl | exact hpaused

theorem fresh_own (h : a.role.owns = none) : fresh.own s a := by
  constructor
  · intro m hrole
    rw [hrole] at h
    cases h
  · intro m hrole
    rw [hrole] at h
    cases h

theorem stable_fresh {d : Tasks.Discipline Service ServiceTask Env ServiceCall} :
    Tasks.Assertions.Stable owned fresh program d where
  symm _ := trivial
  call _ _ hbegins := ⟨trivial, fresh_own (owns_begins hbegins)⟩
  callBeside {k s s' a b} _ _ _ hb hbegins := by
    have hsame := sameStates_begins hbegins
    refine ⟨⟨fun m hrole => ?_, fun m hrole => ?_⟩, trivial⟩
    · rw [hsame m]
      exact hb.2.1 m hrole
    · rw [Service.face, hsame m]
      exact hb.2.2 m hrole
  step {env s a move} htaken := by
    obtain ⟨-, -, ⟨howned, hown⟩, heq⟩ := htaken
    refine ⟨trivial, fun m hrole => ?_, fun m hrole => ?_⟩
    · rw [created_of_step heq hrole]
      rfl
    · rw [Service.face]
      have hslot := slotStep_of_step heq
      rw [hrole] at hslot
      rcases hslot.records with ⟨hbefore, hrecords⟩ | ⟨hbefore, hsame⟩
      · have howns : a.role.owns = some m := by rw [hbefore]; rfl
        exact Prod.ext hrecords (unpaused_of_step heq howns howned (hown.1 m hbefore))
      · have howns : a.role.owns = some m := by rw [hbefore]; rfl
        have hface := hown.2 m hbefore
        have hrecords : (move.shared.sessions m).state.isRecording = true :=
          (congrFun (congrArg Slot.recording hsame) m).trans (congrArg Prod.fst hface)
        exact Prod.ext hrecords (unpaused_of_step heq howns howned (congrArg Prod.snd hface))
  beside {env s a b move} hbeside := by
    obtain ⟨⟨-, -, -, heq⟩, -, ⟨howned, hb⟩, hapart, -⟩ := hbeside
    refine ⟨⟨fun m hrole => ?_, fun m hrole => ?_⟩, trivial⟩
    · have hface := face_of_step heq (by rw [hrole]; rfl) howned hapart
      exact (congrArg Prod.snd hface).trans (hb.1 m hrole)
    · exact (face_of_step heq (by rw [hrole]; rfl) howned hapart).trans (hb.2 m hrole)
  spawn htaken hspawned := ⟨fresh_own (owns_spawned htaken.eq hspawned), trivial⟩
  spawnBeside _ _ := trivial

theorem hold_fresh {d : Tasks.Discipline Service ServiceTask Env ServiceCall}
    {c : Tasks.Config Service ServiceTask} (h : Tasks.Reaches program d start c) :
    fresh.Hold c := by
  refine stable_fresh.of_reaches (fun _ => hold_owned) ?_ h
  exact ⟨trivial, fun _ => fresh_own rfl, fun _ _ _ => trivial⟩

/-! ## The start that is permitted -/

theorem holdsStart_of_flow {a : ServiceTask} (h : a.flow = .permitted ∨ a.flow = .starting) :
    a.role.holdsStart = true := by
  cases a with
  | start pool pc => cases pc <;> first | rfl | (rcases h with h | h <;> cases h)
  | stop call pc => cases pc <;> rcases h with h | h <;> cases h
  | toggle resume pc => cases pc <;> rcases h with h | h <;> cases h
  | _ => rcases h with h | h <;> cases h

/-- A call is not seen, and begins outside of the flows. -/
theorem view_begins {k : ServiceCall} {s' : Service} (h : begins k s = some (s', a)) :
    s'.view = s.view ∧ a.flow = .rest := by
  cases k with
  | report m error =>
    rw [begins] at h
    split at h
    · cases h
      exact ⟨Service.view_update_same ⟨rfl, rfl⟩, rfl⟩
    · cases h
  | _ => cases h; exact ⟨rfl, rfl⟩

/-- So does a task that is spawned. -/
theorem flow_spawned {child : ServiceTask} (h : step env s a = some move)
    (hspawned : move.spawned = some child) : child.flow = .rest := by
  rcases spawned_cases h hspawned with ⟨pool, m, -, rfl⟩ | ⟨m, error, pool, -, rfl⟩
  · rfl
  · rfl

/-- A start that has got past `begin_start_phase` finds nothing that records. -/
def permitted : Tasks.Assertions Service ServiceTask where
  shared _ := True
  own s a := a.flow = .permitted → ∀ paused, s.view.live ≠ some (true, paused)
  pair _ _ := True

/-- What was proved of all runs. -/
def groundwork : Tasks.Assertions Service ServiceTask := (flags.and owned).and (settled.and fresh)

theorem hold_groundwork {d : Tasks.Discipline Service ServiceTask Env ServiceCall}
    {c : Tasks.Config Service ServiceTask} (h : Tasks.Reaches program d start c) :
    groundwork.Hold c :=
  ((hold_flags h).and (hold_owned h)).and ((hold_settled h).and (hold_fresh h))

/-- A step that is taken in an orderly run is a step of the phase. -/
theorem phaseStep_of_groundwork (h : step env s a = some move) (hallowed : orderly.step env s a)
    (hs : groundwork.shared s) (hown : groundwork.own s a) :
    PhaseStep (beginsFlow s a) s.view a.flow move.shared.view move.task.flow := by
  obtain ⟨⟨-, hknown⟩, -⟩ := hs
  obtain ⟨⟨-, howned⟩, hquiet, hfresh⟩ := hown
  exact phaseStep_of_step h hallowed hknown howned hquiet hfresh

theorem stable_permitted : Tasks.Assertions.Stable groundwork permitted program orderly where
  symm _ := trivial
  call {k s s' a} _ _ hbegins := by
    refine ⟨trivial, fun hflow => ?_⟩
    rw [(view_begins hbegins).2] at hflow
    cases hflow
  callBeside {k s s' a b} _ _ _ hb hbegins := by
    refine ⟨fun hflow paused => ?_, trivial⟩
    rw [(view_begins hbegins).1]
    exact hb.2 hflow paused
  step {env s a move} htaken := by
    obtain ⟨hallowed, ⟨hs, -⟩, ⟨hground, hown⟩, heq⟩ := htaken
    have hphase := phaseStep_of_groundwork heq hallowed hs hground
    refine ⟨trivial, fun hflow => ?_⟩
    rw [hflow] at hphase
    exact hphase.permitted hown
  beside {env s a b move} hbeside := by
    obtain ⟨⟨hallowed, ⟨hs, -⟩, ⟨hground, -⟩, heq⟩, -, ⟨-, hb⟩, ⟨⟨⟨hstart, -⟩, -⟩, -⟩, -⟩ :=
      hbeside
    have hphase := phaseStep_of_groundwork heq hallowed hs hground
    refine ⟨fun hflow paused hlive => ?_, trivial⟩
    rcases hphase.live hlive with hstarting | ⟨paused', hbefore⟩
    · -- there is only one start
      have hother := hstart (holdsStart_of_flow (.inr hstarting))
      exact absurd (hother.symm.trans (holdsStart_of_flow (.inl hflow))) nofun
    · exact hb hflow paused' hbefore
  spawn {env s a child move} htaken hspawned := by
    refine ⟨fun hflow => ?_, trivial⟩
    rw [flow_spawned htaken.eq hspawned] at hflow
    cases hflow
  spawnBeside _ _ := trivial

theorem hold_permitted {c : Tasks.Config Service ServiceTask}
    (h : Tasks.Reaches program orderly start c) : permitted.Hold c := by
  refine stable_permitted.of_reaches (fun _ => hold_groundwork) ?_ h
  exact ⟨trivial, fun _ => nofun, fun _ _ _ => trivial⟩

/-! ## Turns -/

section Turns

variable {c : Tasks.Config Service ServiceTask} {t child : ℕ}

/-- A step of an orderly run is a step of the phase. -/
theorem phaseStep_of_reaches (hreach : Tasks.Reaches program orderly start c)
    (hallow : orderly.Allows c (.run t env child))
    (hstep : step env c.shared (c.tasks t) = some move) :
    PhaseStep (beginsFlow c.shared (c.tasks t)) c.shared.view (c.tasks t).flow move.shared.view
      move.task.flow :=
  phaseStep_of_groundwork hstep hallow.1 (hold_groundwork hreach).shared
    ((hold_groundwork hreach).own t)

/-- The flows take turns. -/
theorem turns : Tasks.Turns (Tasks.Reaches program orderly start) program orderly
    (fun a => a.flow.underWay) (fun s => s.view.Rest) fun s a => s.view.Fits a.flow where
  free {a} hfree := by cases a <;> first | rfl | cases hfree
  call {c t k s' a} _ _ hbegins := by
    obtain ⟨hview, hflow⟩ := view_begins hbegins
    rw [hview, hflow]
    exact ⟨rfl, id, fun _ _ => id⟩
  spawn hstep hspawned := by rw [flow_spawned hstep hspawned]; rfl
  alone {c t child u env move} hreach hallow hstep hbefore hafter hu := by
    have hphase := phaseStep_of_reaches hreach hallow hstep
    exact hallow.2 u hu (hphase.begins_of_enter hbefore hafter)
  enter {c t child env move} hreach hallow hstep hbefore hafter hrest := by
    have hphase := phaseStep_of_reaches hreach hallow hstep
    exact hphase.enter hbefore hafter hrest ((hold_permitted hreach).own t)
  within hreach hallow hstep hbefore hafter hfits :=
    (phaseStep_of_reaches hreach hallow hstep).within hbefore hafter hfits
  leave hreach hallow hstep hbefore hafter hfits :=
    (phaseStep_of_reaches hreach hallow hstep).leave hbefore hafter hfits
  outside {c t child env move} hreach hallow hstep hbefore hafter := by
    obtain ⟨hrest, hsame⟩ := (phaseStep_of_reaches hreach hallow hstep).outside hbefore hafter
    refine ⟨hrest, fun u hu hother hfits => ?_⟩
    -- a fatal error is not reported beside another flow
    have hquiet : beginsFlow c.shared (c.tasks t) = false := by
      rcases hbegins : beginsFlow c.shared (c.tasks t) with _ | _
      · rfl
      · rw [hallow.2 u hu hbegins] at hother
        cases hother
    rw [hsame hquiet]
    exact hfits

end Turns

/-! ## The phase -/

/-- A change of the phase in a step from one configuration to the next is one that `next_phase`
allows. -/
def FollowsTable (c c' : Tasks.Config Service ServiceTask) : Prop :=
  c'.shared.phase.seq ≠ c.shared.phase.seq →
    RecordingPhase.nextPhase c.shared.phase.phase c'.shared.phase.phase = .ok c'.shared.phase.phase

/-- **The phase follows the table.** In an orderly run no change of the phase is applied anyway. -/
theorem followsTable_of_reaches {c c' : Tasks.Config Service ServiceTask}
    {label : Tasks.Label Env ServiceCall} (h : Tasks.Reaches program orderly start c)
    (hallow : orderly.Allows c label) (hnext : program.next c label = some c') :
    FollowsTable c c' := by
  intro hseq
  rcases Tasks.Program.next_cases hnext with
    ⟨t, k, s', task, -, -, hbegins, rfl⟩ | ⟨t, env, child, move, rfl, hstep, hafter⟩
  · have hsame : s'.phase.seq = c.shared.phase.seq :=
      congrArg PhaseView.seq (view_begins hbegins).1
    exact absurd hsame hseq
  · obtain ⟨hshared, -, -⟩ := Tasks.Program.afterMove_cases hafter
    rw [hshared] at hseq ⊢
    have hturns := turns.hold_of_reaches (fun _ => id) (fun _ => rfl) rfl h
    have hphase := phaseStep_of_reaches h hallow hstep
    refine RecordingPhase.nextPhase_eq_ok_iff.mpr ⟨?_, rfl⟩
    refine hphase.allowed (fun hbefore hbegins => ?_) ((hold_permitted h).own t) ?_ hseq
    · -- a flow begins where there is no other
      refine hturns.rest fun u => ?_
      rcases eq_or_ne u t with rfl | hu
      · exact hbefore
      · exact hallow.2 u hu hbegins
    · rcases hactive : (c.tasks t).flow.underWay with _ | _
      · generalize (c.tasks t).flow = f at hactive
        cases f <;> trivial
      · exact hturns.fits t hactive

/-! ### A fatal error while recording, and one during the start -/

instance (k : ServiceCall) (s : Service) : Decidable (orderly.call k s) :=
  inferInstanceAs (Decidable True)

instance (k : ServiceCall) (b : ServiceTask) : Decidable (orderly.callBeside k b) :=
  inferInstanceAs (Decidable True)

instance (env : Env) (s : Service) (a : ServiceTask) : Decidable (orderly.step env s a) :=
  inferInstanceAs (Decidable ((tells a = true → env.ok = true) ∧
    (needsManager a = true → s.manager.isSome = true) ∧
    (atToggle a = true → beginsFlow s a = true → s.phase.phase ≠ .error)))

instance (env : Env) (s : Service) (a b : ServiceTask) : Decidable (orderly.stepBeside env s a b) :=
  inferInstanceAs (Decidable (beginsFlow s a = true → b.flow.underWay = false))

/-- A recording has started, its channel has closed, and the stop is about to change the phase. -/
def errorThenStop : List (Tasks.Label Env ServiceCall) :=
  firstStart ++ .call 2 (.report 0 .channelClosed) :: steps 2 3 6 ++ steps 3 9 4

/-- The channel closes before the manager is stored, and the start is about to change the phase. -/
def errorThenRecording : List (Tasks.Label Env ServiceCall) :=
  .call 0 (.start false) :: steps 0 1 8 ++ .call 2 (.report 0 .channelClosed) :: steps 2 3 6 ++
    steps 0 1 8

/-- The stop of a recording that failed. -/
theorem followsTable_errorThenStop :
    ∃ c c', program.runBelow orderly 10 start errorThenStop = some c ∧
      program.next c (.run 3 ⟨true, true, 0⟩ 9) = some c' ∧ c.shared.phase.phase = .error ∧
      c'.shared.phase.phase = .stopping ∧ FollowsTable c c' := by
  obtain ⟨c, hrun, hc⟩ := Option.map_eq_some_iff.mp
    (show (program.runBelow orderly 10 start errorThenStop).map (fun c =>
      (c.shared.phase.phase, orderly.allowsBelow 10 c (.run 3 ⟨true, true, 0⟩ 9),
        (program.next c (.run 3 ⟨true, true, 0⟩ 9)).map fun c' => c'.shared.phase.phase)) =
      some (.error, true, some .stopping) from rfl)
  obtain ⟨hbefore, hc⟩ := Prod.mk.inj hc
  obtain ⟨hallowed, hnext⟩ := Prod.mk.inj hc
  obtain ⟨c', hnext, hafter⟩ := Option.map_eq_some_iff.mp hnext
  have hcall : ∀ k, orderly.callBeside k .free := fun _ => trivial
  have hstep : ∀ env s a, orderly.stepBeside env s a .free := fun _ _ _ _ => rfl
  have hreach : Tasks.Reaches program orderly start c :=
    .of_runBelow hcall hstep (fun _ _ => rfl) .refl hrun
  have hallow : orderly.Allows c (.run 3 ⟨true, true, 0⟩ 9) :=
    Tasks.Discipline.allows_of_allowsBelow hcall hstep
      (fun u hu => Tasks.Program.tasks_of_runBelow hu hrun) hallowed
  exact ⟨c, c', hrun, hnext, hbefore, hafter, followsTable_of_reaches hreach hallow hnext⟩

/-- In general a start that a fatal error has overtaken goes from `Error` to `Recording`. -/
theorem not_followsTable_errorThenRecording :
    ¬∀ c c' label, Tasks.Reaches program .free start c → program.next c label = some c' →
      FollowsTable c c' := by
  intro h
  obtain ⟨c, hrun, hc⟩ := Option.map_eq_some_iff.mp
    (show (program.runBelow .free 10 start errorThenRecording).map (fun c =>
      (c.shared.phase.phase, c.shared.phase.seq,
        (program.next c (.run 0 ⟨true, true, 0⟩ 9)).map fun c' =>
          (c'.shared.phase.phase, c'.shared.phase.seq))) =
      some (.error, 2, some (.recording, 3)) from rfl)
  obtain ⟨hbefore, hc⟩ := Prod.mk.inj hc
  obtain ⟨hseq, hnext⟩ := Prod.mk.inj hc
  obtain ⟨c', hnext, hc'⟩ := Option.map_eq_some_iff.mp hnext
  obtain ⟨hafter, hseq'⟩ := Prod.mk.inj hc'
  have hreach : Tasks.Reaches program .free start c := .of_runBelow_free (fun _ _ => rfl) hrun
  have hallowed := h c c' _ hreach hnext (by rw [hseq, hseq']; decide)
  rw [hbefore, hafter] at hallowed
  cases hallowed

end RecordingService

end MeetilyLocal
