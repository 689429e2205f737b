import MeetilyLocal.Recording.PhaseAwaits

/-!
# The phase tells the truth

While no start and no stop is running, the phase is `Recording` or `Paused` exactly when the manager
in the slot records, and is paused or not (`RecordingService.tellsTruth_of_reaches`), in all runs in
which no stop begins, and nothing is paused, before a start under way has changed the phase for the
last time.

What a start has stored records until it has told so, and nothing does before that or after a stop
has taken the manager out (`RecordingService.SlotHeld`).
-/

namespace MeetilyLocal

namespace RecordingService

variable {env : Env} {s : Service} {a b : ServiceTask} {move : Tasks.Move Service ServiceTask}
  {c : Tasks.Config Service ServiceTask}

/-! ## What the slot holds for whom -/

/-- What a start that has stored its manager, a pause or a stop knows of the slot. -/
structure SlotHeld (s : Service) (a : ServiceTask) : Prop where
  /-- before a start stores its manager, and after a stop has taken one out, nothing records -/
  silent : a.silent = true → s.view.Quiet
  /-- the manager that a start has stored records -/
  started : a.flow = .started → s.view.live = some (true, false)
  /-- what a pause or a resume has changed is as it left it -/
  toggled : ∀ resume, a.flow = .toggled resume → s.view.live = some (true, !resume)

/-- What the slot holds for whom. -/
def slotHeld : Tasks.Assertions Service ServiceTask where
  shared _ := True
  own := SlotHeld
  pair _ _ := True

theorem slotHeld_of_rest (hsilent : a.silent = false) (hflow : a.flow = .rest) : SlotHeld s a := by
  refine ⟨fun h => ?_, fun h => ?_, fun resume h => ?_⟩
  · rw [hsilent] at h
    cases h
  · rw [hflow] at h
    cases h
  · rw [hflow] at h
    cases h

/-- A stop is silent once it has taken the manager out. -/
theorem silent_stopStep {call : StopCall} {pc : StopPc} (h : stopStep call env s pc = some move)
    (hsilent : move.task.silent = true) :
    (ServiceTask.stop call pc).silent = true ∨ move.shared.manager = none := by
  cases pc with
  | checkManager =>
    cases h
    rcases hm : s.manager.isSome with _ | _ <;> rw [hm] at hsilent <;> cases hsilent
  | loadStop =>
    cases h
    rcases hstop : s.stopInProgress with _ | _ <;> rw [hstop] at hsilent <;> cases hsilent
  | tryStop =>
    rw [stopStep] at h
    split at h <;> cases h <;> cases hsilent
  | readPhase | readMeeting | emitStopping => cases h; cases hsilent
  | take => cases h; exact .inr rfl
  | _ => exact .inl rfl

/-- Where a silent task is in its flow. -/
theorem flow_of_silent (h : a.silent = true) :
    (∃ pool pc, a = .start pool pc ∧ (a.flow = .permitted ∨ a.flow = .starting)) ∨
      ∃ call pc, a = .stop call pc ∧ pc.hasTaken = true ∧
        ((a.flow = .stopping ∨ a.flow = .finalising ∨ a.flow = .saving) ∨ pc = .release) := by
  cases a with
  | start pool pc =>
    refine .inl ⟨pool, pc, rfl, ?_⟩
    simpa [ServiceTask.silent, ServiceTask.flow] using h
  | stop call pc =>
    refine .inr ⟨call, pc, rfl, h, ?_⟩
    cases pc with
    | stopRecording | stopStreams | cleanup | replay | putBack | emitFinalising =>
      exact .inl (.inl rfl)
    | takeTask | drain | unsubscribe | takeWriter | finalTake => exact .inl (.inr (.inl rfl))
    | save | finaliseRow | emitStopped | emitIdle => exact .inl (.inr (.inr rfl))
    | release => exact .inr rfl
    | _ => cases h
  | _ => cases h

theorem quiet_of_none (h : s.manager = none) : s.view.Quiet := by
  intro paused hlive
  simp [Service.view, h] at hlive

/-- A step leaves nothing in the slot that records, where its task will rely on it. -/
theorem viewQuiet_of_step (h : step env s a = some move)
    (hseen : SeenStep (beginsFlow s a) s.view a.flow move.shared.view move.task.flow)
    (hheld : SlotHeld s a) (hsilent : move.task.silent = true) : move.shared.view.Quiet := by
  obtain ⟨pool, pc, htask, hflow⟩ | ⟨call, pc, htask, hlater, -⟩ := flow_of_silent hsilent
  · refine hseen.quiet_of_start hflow fun hbefore => hheld.silent ?_
    cases a with
    | start pool' pc' => simpa [ServiceTask.silent, ServiceTask.flow] using hbefore
    | stop call pc' => cases pc' <;> obtain hbefore | hbefore := hbefore <;> cases hbefore
    | toggle resume pc' => cases pc' <;> obtain hbefore | hbefore := hbefore <;> cases hbefore
    | _ => obtain hbefore | hbefore := hbefore <;> cases hbefore
  · have hstop := holdsStop_of_step h (htask ▸ holdsStop_of_silent hlater)
    cases a with
    | start pool pc' => cases pc' <;> obtain hstop | ⟨_, hstop, -⟩ := hstop <;> cases hstop
    | stop call' pc' =>
      obtain hbefore | hnone := silent_stopStep h hsilent
      · obtain ⟨_, _, hkind, -⟩ | ⟨call'', pc'', hkind, -, hflow | hrelease⟩ :=
          flow_of_silent hbefore
        · cases hkind
        · exact hseen.quiet_of_stop hflow (hheld.silent hbefore)
        · cases hkind
          rw [hrelease] at h
          cases h
          cases htask
      · exact quiet_of_none hnone
    | _ => obtain hstop | ⟨_, hstop, -⟩ := hstop <;> cases hstop

theorem flow_of_betweenAwaits {resume : Bool} (h : a.flow = .toggled resume) :
    a.betweenAwaits = true := by
  cases a with
  | start pool pc => cases pc <;> cases h
  | stop call pc => cases pc <;> cases h
  | toggle resume' pc => cases pc <;> first | rfl | cases h
  | _ => cases h

theorem startsUp_of_flow (h : a.flow = .permitted ∨ a.flow = .starting ∨ a.flow = .started) :
    a.startsUp = true := by
  cases a with
  | start pool pc => cases pc <;> first | rfl | (obtain h | h | h := h <;> cases h)
  | stop call pc => cases pc <;> obtain h | h | h := h <;> cases h
  | toggle resume pc => cases pc <;> obtain h | h | h := h <;> cases h
  | _ => obtain h | h | h := h <;> cases h

/-- A step that pauses or resumes intrudes. -/
theorem intrudes_of_toggled {resume : Bool} (h : step env s a = some move)
    (hbegins : beginsFlow s a = true) (hflow : move.task.flow = .toggled resume) :
    intrudes s a = true := by
  cases a with
  | toggle resume' pc =>
    cases pc with
    | toggle => exact hbegins
    | _ => cases hbegins
  | start pool pc =>
    cases pc with
    | emitStarting => cases h; cases hflow
    | _ => cases hbegins
  | stop call pc =>
    cases pc with
    | emitStopping => cases h; cases hflow
    | _ => cases hbegins
  | report m error pc =>
    cases pc with
    | emitError => cases h; cases hflow
    | _ => cases hbegins
  | _ => cases hbegins

/-- A step of one task leaves what the slot holds for another. -/
theorem slotHeld_beside
    (hseen : SeenStep (beginsFlow s a) s.view a.flow move.shared.view move.task.flow)
    (hstart : a.role.holdsStart = true → b.role.holdsStart = false)
    (hexclusive : exclusive.pair a b) (hawaits : b.betweenAwaits = false)
    (htoggles : b.startsUp = true → beginsFlow s a = true →
      ∀ resume, move.task.flow ≠ .toggled resume)
    (hother : SlotHeld s b) : SlotHeld move.shared b where
  silent hsilent paused hlive := by
    obtain hstarting | ⟨paused', hbefore⟩ := hseen.live hlive
    · -- a start has stored its manager: there is no other, and no stop has begun
      have hholds := hstart (holdsStart_of_flow (.inr hstarting))
      have hstops := hexclusive.1 (startsUp_of_flow (.inr (.inl hstarting)))
      obtain ⟨pool, pc, -, hflow⟩ | ⟨call, pc, rfl, htaken, -⟩ := flow_of_silent hsilent
      · exact absurd (hholds.symm.trans (holdsStart_of_flow hflow)) nofun
      · exact absurd (hstops.symm.trans (holdsStop_of_silent htaken)) nofun
    · exact hother.silent hsilent paused' hbefore
  started hflow := by
    have hup := startsUp_of_flow (.inr (.inr hflow))
    have hstops := hexclusive.2 hup
    have hholds : a.role.holdsStart = false := by
      by_contra hheld
      have := hstart (Bool.not_eq_false _ ▸ hheld)
      exact absurd (this.symm.trans (holdsStart_of_startsUp hup)) nofun
    have hflows : ∀ f, (f = Flow.stopping ∨ f = .finalising ∨ f = .saving) → a.flow ≠ f := by
      rintro f hf rfl
      exact absurd (hstops.symm.trans (holdsStop_of_flow hf)) nofun
    refine (hseen.live_eq (fun hstarting => ?_) (hflows _ (.inl rfl)) (hflows _ (.inr (.inl rfl)))
      (htoggles hup)).trans (hother.started hflow)
    exact absurd (hholds.symm.trans (holdsStart_of_flow (.inr hstarting))) nofun
  toggled resume hflow := by
    rw [flow_of_betweenAwaits hflow] at hawaits
    cases hawaits

/-- What was proved of all runs, and what holds in these. -/
def ordered : Tasks.Assertions Service ServiceTask := groundwork.and exclusive

theorem slotHeld_stable : Tasks.Assertions.Stable ordered slotHeld program undisturbed where
  symm _ := trivial
  call {k s s' a} _ _ hbegins := by
    refine ⟨trivial, slotHeld_of_rest ?_ (view_begins hbegins).2⟩
    cases k with
    | report m error =>
      simp only [program, begins] at hbegins
      split at hbegins <;> cases hbegins
      rfl
    | _ => cases hbegins; rfl
  callBeside {k s s' a b} _ _ _ hown hbegins := by
    obtain ⟨hsilent, hstarted, htoggled⟩ := hown.2
    rw [← (view_begins hbegins).1] at hsilent hstarted htoggled
    exact ⟨⟨hsilent, hstarted, htoggled⟩, trivial⟩
  step {env s a move} htaken := by
    obtain ⟨htold, ⟨⟨hs, -⟩, -⟩, ⟨⟨hground, -⟩, hheld⟩, heq⟩ := htaken
    have hseen := seenStep_of_step heq htold hs hground
    refine ⟨trivial, viewQuiet_of_step heq hseen hheld, fun hflow => ?_, fun resume hflow => ?_⟩
    · rw [hflow] at hseen
      exact hseen.live_of_started hheld.started
    · rw [hflow] at hseen
      exact hseen.live_of_toggled (hheld.toggled resume)
  beside {env s a b move} hbeside := by
    obtain ⟨⟨htold, ⟨⟨hs, -⟩, -⟩, ⟨⟨hground, -⟩, hheld⟩, heq⟩, ⟨hawaits, hintrudes⟩,
      ⟨-, hother⟩, ⟨⟨hflags, -⟩, hexclusive⟩, -⟩ := hbeside
    have hseen := seenStep_of_step heq htold hs hground
    refine ⟨slotHeld_beside hseen hflags.1.1 hexclusive hawaits
      (fun hup hbegins resume hflow => ?_) hother, trivial⟩
    rw [hintrudes (intrudes_of_toggled heq hbegins hflow)] at hup
    cases hup
  spawn {env s a child move} htaken hspawned := by
    refine ⟨slotHeld_of_rest ?_ (flow_spawned htaken.eq hspawned), trivial⟩
    obtain ⟨pool, m, -, rfl⟩ | ⟨m, error, pool, -, rfl⟩ := spawned_cases htaken.eq hspawned <;> rfl
  spawnBeside _ _ := trivial

theorem hold_ordered (h : Tasks.Reaches program undisturbed start c) : ordered.Hold c :=
  (hold_groundwork h).and (hold_exclusive h)

theorem hold_slotHeld (h : Tasks.Reaches program undisturbed start c) : slotHeld.Hold c :=
  slotHeld_stable.of_reaches (fun _ => hold_ordered)
    ⟨trivial, fun _ => slotHeld_of_rest rfl rfl, fun _ _ _ => trivial⟩ h

section Steps

variable {t child : ℕ}

theorem seenStep_of_reaches (h : Tasks.Reaches program undisturbed start c)
    (hallow : undisturbed.Allows c (.run t env child))
    (hstep : step env c.shared (c.tasks t) = some move) :
    SeenStep (beginsFlow c.shared (c.tasks t)) c.shared.view (c.tasks t).flow move.shared.view
      move.task.flow :=
  seenStep_of_step hstep hallow.1 (hold_groundwork h).shared ((hold_groundwork h).own t)

theorem slotHeld_of_reaches (h : Tasks.Reaches program undisturbed start c)
    (hallow : undisturbed.Allows c (.run t env child))
    (hstep : step env c.shared (c.tasks t) = some move) : SlotHeld move.shared move.task :=
  (slotHeld_stable.step ⟨hallow.1, ⟨(hold_ordered h).shared, trivial⟩,
    ⟨(hold_ordered h).own t, (hold_slotHeld h).own t⟩, hstep⟩).2

end Steps

/-! ## What the phase shows where no task owes it -/

theorem silent_of_flow (h : a.flow = .starting ∨ a.flow = .finalising ∨ a.flow = .saving) :
    a.silent = true := by
  cases a with
  | start pool pc => cases pc <;> first | rfl | (obtain h | h | h := h <;> cases h)
  | stop call pc => cases pc <;> first | rfl | (obtain h | h | h := h <;> cases h)
  | toggle resume pc => cases pc <;> obtain h | h | h := h <;> cases h
  | _ => obtain h | h | h := h <;> cases h

/-- What is shown where no task owes it. -/
theorem shown_absent : Tasks.Absent (Tasks.Reaches program undisturbed start) program undisturbed
    (fun a => a.flow.owes = true) (fun s => s.view.Shown) := by
  have hstep : ∀ {c : Tasks.Config Service ServiceTask} {t child : ℕ} {env : Env}
      {move : Tasks.Move Service ServiceTask}, Tasks.Reaches program undisturbed start c →
      undisturbed.Allows c (.run t env child) → step env c.shared (c.tasks t) = some move →
      ((c.tasks t).flow.owes = false → c.shared.view.Shown) → ¬move.task.flow.owes = true →
      move.shared.view.Shown := by
    intro c t child env move h hallow hstep hbefore hafter
    have hheld := (hold_slotHeld h).own t
    exact (seenStep_of_reaches h hallow hstep).shown (Bool.not_eq_true _ ▸ hafter) hbefore
      (fun hflow => hheld.silent (silent_of_flow hflow))
      (fun hflow => (slotHeld_of_reaches h hallow hstep).silent (silent_of_flow (.inr (.inl hflow))))
      hheld.started hheld.toggled
  refine ⟨?_, ?_, ?_, ?_⟩
  · intro a hfree howes
    cases a <;> first | cases howes | cases hfree
  · intro c t k s' a _ _ hbegins _ hshown
    rw [(view_begins hbegins).1]
    exact hshown
  · exact fun h hallow hstep' _ hafter hshown => hstep h hallow hstep' (fun _ => hshown) hafter
  · intro c t child env move h hallow hstep' hbusy hafter _ _
    refine hstep h hallow hstep' (fun hidle => ?_) hafter
    rw [hbusy] at hidle
    cases hidle

/-! ## Fatal errors are not shown for long -/

/-- A start under way, a stop that has yet to take the manager out, and an error that has yet to
spawn one. -/
def answersError : ServiceTask → Bool
  | .start _ pc => pc.flow == .starting || pc.flow == .started
  | .stop _ .loadStop => false
  | .stop _ pc => !pc.hasTaken
  | .report _ _ .spawnStop => true
  | _ => false

/-- Only a report begins a flow that is over. -/
theorem report_of_begins (h : step env s a = some move) (hbegins : beginsFlow s a = true)
    (hbefore : a.flow = .rest) (hafter : move.task.flow = .rest) :
    ∃ m error, a = .report m error .emitError ∧ move.task = .report m error .spawnStop := by
  cases a with
  | start pool pc =>
    cases pc with
    | emitStarting => cases hbefore
    | _ => cases hbegins
  | stop call pc =>
    cases pc with
    | emitStopping => cases h; cases hafter
    | _ => cases hbegins
  | toggle resume pc =>
    cases pc with
    | toggle =>
      obtain ⟨m, hm, hface⟩ : ∃ m, s.manager = some m ∧ s.face m = (true, resume) := by
        simpa [beginsFlow, Option.map_eq_some_iff] using hbegins
      rw [step] at h
      rcases toggleStep_cases h with ⟨-, hnot⟩ | ⟨m', -, -, -, rfl⟩
      · exact absurd hface (hnot m hm)
      · cases hafter
    | _ => cases hbegins
  | report m error pc =>
    cases pc with
    | emitError => cases h; exact ⟨m, error, rfl, rfl⟩
    | _ => cases hbegins
  | _ => cases hbegins

/-- What a step keeps of that, but where a start stores its manager or an error is shown. -/
theorem answered_of_step (h : step env s a = some move)
    (hseen : SeenStep (beginsFlow s a) s.view a.flow move.shared.view move.task.flow)
    (hbefore : s.view.Answered) (hstarting : a.flow ≠ .starting)
    (herror : ∀ m error, move.task ≠ .report m error .spawnStop) : move.shared.view.Answered := by
  have herrs : beginsFlow s a = true → a.flow = .rest → move.task.flow ≠ .rest := by
    intro hbegins hrest hafter
    obtain ⟨m, error, -, htask⟩ := report_of_begins h hbegins hrest hafter
    exact herror m error htask
  generalize move.task.flow = f' at hseen herrs
  generalize a.flow = f at hseen herrs hstarting
  generalize beginsFlow s a = begins at hseen herrs
  generalize s.view = v at hseen hbefore
  generalize move.shared.view = v' at hseen
  have hkept : ∀ {resume : Bool}, v.live = some (true, resume) → v.phase ≠ .error :=
    fun hlive hphase => hbefore hphase _ hlive
  cases hseen with
  | phase hphase =>
    cases hphase with
    | stays | permits => exact hbefore
    | stores => exact absurd rfl hstarting
    | takes | takesAll => exact fun _ => nofun
    | putsBack => exact fun _ _ => nofun
    | toggles hlive => exact fun herr => absurd herr (hkept hlive)
    | toggleEnds => exact fun herr => absurd herr.symm (ne_togglePhase (by decide) (by decide) _)
    | errs => exact absurd rfl (herrs rfl rfl)
    | _ => exact nofun
  | stopBegins => exact nofun
  | errs => exact absurd rfl (herrs rfl rfl)
  | toggles hlive => exact fun herr => absurd herr (hkept hlive)
  | untold => exact hbefore

theorem answersError_of_flow (h : a.flow = .starting ∨ a.flow = .started) :
    answersError a = true := by
  cases a with
  | start pool pc => simpa [answersError, ServiceTask.flow] using h
  | stop call pc => cases pc <;> obtain h | h := h <;> cases h
  | toggle resume pc => cases pc <;> obtain h | h := h <;> cases h
  | _ => obtain h | h := h <;> cases h

/-- A start shows no error when it ends. -/
theorem answered_of_start {begins : Bool} {v v' : PhaseView} {f f' : Flow}
    (h : SeenStep begins v f v' f') (hf : f = .starting ∨ f = .started) (hstarting : f' ≠ .starting)
    (hstarted : f' ≠ .started) : v'.Answered := by
  cases h with
  | phase h =>
    cases h with
    | stays => exact absurd hf (not_or.mpr ⟨hstarting, hstarted⟩)
    | stores => exact absurd rfl hstarted
    | startFails | startEnds => exact nofun
    | _ => obtain hf | hf := hf <;> cases hf
  | _ => obtain hf | hf := hf <;> cases hf

/-- Where a stop has begun and is past the point at which it would see an error's manager, nothing
records. -/
theorem quiet_of_refused (h : Tasks.Reaches program undisturbed start c) {t : ℕ}
    (hset : c.shared.stopInProgress = true) (hfree : (c.tasks t).role.holdsStop = false)
    (hothers : ∀ u ≠ t, ¬answersError (c.tasks u) = true) : c.shared.view.Quiet := by
  obtain ⟨u, hu⟩ := stopGuard.exists_holds rfl h hset
  have hne : u ≠ t := by
    rintro rfl
    exact absurd (hfree.symm.trans hu) nofun
  refine ((hold_slotHeld h).own u).silent ?_
  have hpast := hothers u hne
  generalize c.tasks u = b at hu hpast
  cases b with
  | start pool pc => cases pc <;> cases hu
  | stop call pc =>
    cases pc with
    | readPhase | readMeeting | emitStopping | take => exact absurd rfl hpast
    | checkManager | loadStop | tryStop => cases hu
    | _ => rfl
  | _ => cases hu

theorem answered_absent : Tasks.Absent (Tasks.Reaches program undisturbed start) program undisturbed
    (fun a => answersError a = true) (fun s => s.view.Answered) where
  free := by
    intro a hfree hanswers
    cases a <;> first | cases hanswers | cases hfree
  call := by
    intro c t k s' a _ _ hbegins _ hanswered
    rw [(view_begins hbegins).1]
    exact hanswered
  stay := by
    intro c t child env move h hallow hstep hbefore hafter hanswered
    refine answered_of_step hstep (seenStep_of_reaches h hallow hstep) hanswered (fun hflow => ?_)
      fun m error htask => ?_
    · exact hbefore (answersError_of_flow (.inl hflow))
    · rw [htask] at hafter
      exact hafter rfl
  leave := by
    intro c t child env move h hallow hstep hbusy hafter hothers hspawned
    have hseen := seenStep_of_reaches h hallow hstep
    have hrefused := quiet_of_refused (t := t) h
    generalize htask : c.tasks t = a at hstep hbusy hseen hrefused
    cases a with
    | start pool pc =>
      have hunder : (ServiceTask.start pool pc).flow = .starting ∨
          (ServiceTask.start pool pc).flow = .started := by
        simpa [answersError, ServiceTask.flow] using hbusy
      refine answered_of_start hseen hunder (fun hflow => ?_) fun hflow => ?_
      · exact hafter (answersError_of_flow (.inl hflow))
      · exact hafter (answersError_of_flow (.inr hflow))
    | stop call pc =>
      cases pc with
      | checkManager =>
        cases hstep
        rcases hm : c.shared.manager with _ | m
        · exact fun _ => quiet_of_none hm
        · simp [hm, answersError, StopPc.hasTaken] at hafter
      | tryStop =>
        simp only [program, step, stopStep] at hstep
        split at hstep
        · next hset =>
          cases hstep
          exact fun _ => hrefused hset rfl hothers
        · cases hstep
          exact absurd rfl hafter
      | readPhase | readMeeting | emitStopping => cases hstep; exact absurd rfl hafter
      | take => cases hstep; exact fun _ => quiet_of_none rfl
      | _ => cases hbusy
    | report m error pc =>
      cases pc with
      | spawnStop =>
        cases hstep
        exact absurd rfl (hspawned _ rfl)
      | _ => cases hbusy
    | _ => cases hbusy

/-- **The phase tells the truth.** -/
theorem tellsTruth_of_reaches (c : Tasks.Config Service ServiceTask)
    (h : Tasks.Reaches program undisturbed start c) : TellsTruth c := by
  intro hidle hawaits
  have hshown : c.shared.view.Shown := by
    refine shown_absent.of_reaches (fun _ => id) (fun _ => ?_) h fun t howes => ?_
    · exact PhaseView.shown_of_quiet (quiet_of_none rfl) nofun nofun
    · have hruns := hidle t
      have hrests := hawaits t
      generalize c.tasks t = a at howes hruns hrests
      cases a with
      | toggle resume pc =>
        cases pc with
        | emitEvent | emitPhase => cases hrests
        | _ => cases howes
      | start | stop => cases hruns
      | _ => cases howes
  have hanswered : c.shared.view.Answered := by
    refine answered_absent.of_reaches (fun _ => id) (fun _ => nofun) h fun t hanswers => ?_
    have hruns := hidle t
    have hrests := hawaits t
    generalize c.tasks t = a at hanswers hruns hrests
    cases a with
    | report m error pc =>
      cases pc with
      | spawnStop => cases hrests
      | _ => cases hanswers
    | start | stop => cases hruns
    | _ => cases hanswers
  have hlive : ∀ paused, c.shared.view.live = some (true, paused) ↔
      ∃ m, c.shared.manager = some m ∧ (c.shared.sessions m).state.isRecording = true ∧
        (c.shared.sessions m).state.isPaused = paused := by
    intro paused
    simp [Service.view, Service.face, Option.map_eq_some_iff]
  have htruth : ∀ paused, c.shared.phase.phase = togglePhase (!paused) ↔
      c.shared.view.live = some (true, paused) := by
    refine fun paused => ⟨hshown.shown paused, fun hrecords => ?_⟩
    exact (hshown.live paused hrecords).resolve_right fun herror => hanswered herror paused hrecords
  exact ⟨(htruth false).trans (hlive false), (htruth true).trans (hlive true)⟩

/-! ### A pause, and a stop during the start -/

instance (k : ServiceCall) (s : Service) : Decidable (undisturbed.call k s) :=
  inferInstanceAs (Decidable True)

instance (k : ServiceCall) (b : ServiceTask) : Decidable (undisturbed.callBeside k b) :=
  inferInstanceAs (Decidable True)

instance (env : Env) (s : Service) (a : ServiceTask) : Decidable (undisturbed.step env s a) :=
  inferInstanceAs (Decidable (announces a = true → env.ok = true))

instance (env : Env) (s : Service) (a b : ServiceTask) :
    Decidable (undisturbed.stepBeside env s a b) :=
  inferInstanceAs (Decidable (b.betweenAwaits = false ∧ (intrudes s a = true → b.startsUp = false)))

instance (k : ServiceCall) (s : Service) : Decidable (awaits.call k s) :=
  inferInstanceAs (Decidable True)

instance (k : ServiceCall) (b : ServiceTask) : Decidable (awaits.callBeside k b) :=
  inferInstanceAs (Decidable True)

instance (env : Env) (s : Service) (a : ServiceTask) : Decidable (awaits.step env s a) :=
  inferInstanceAs (Decidable True)

instance (env : Env) (s : Service) (a b : ServiceTask) : Decidable (awaits.stepBeside env s a b) :=
  inferInstanceAs (Decidable (b.betweenAwaits = false))

/-- A recording has started and is paused. -/
def startThenPause : List (Tasks.Label Env ServiceCall) :=
  firstStart ++ .call 2 .pause :: steps 2 9 4

/-- A stop comes while the start sets up the diarizer, and it is over before the start goes on. -/
def stopDuringStart : List (Tasks.Label Env ServiceCall) :=
  .call 0 (.start false) :: steps 0 1 11 ++ .call 2 (.stop false) :: steps 2 9 21 ++ steps 0 1 7

/-- A recording that is paused. -/
theorem tellsTruth_startThenPause :
    ∃ c, program.runBelow undisturbed 10 start startThenPause = some c ∧
      c.shared.phase.phase = .paused ∧ TellsTruth c :=
  ⟨_, rfl, rfl, tellsTruth_of_reaches _ (.of_runBelow (fun _ => trivial)
    (fun _ _ _ => ⟨rfl, fun _ => rfl⟩) (fun _ _ => rfl) .refl
    (show program.runBelow undisturbed 10 start startThenPause = some _ from rfl))⟩

/-- In general the phase does not tell the truth: it is `Recording` after a recording was stopped
during its start, and there is no manager. -/
theorem not_tellsTruth_stopDuringStart :
    ¬∀ c, Tasks.Reaches program awaits start c → TellsTruth c := by
  intro h
  obtain ⟨c, hrun, hphase, hmanager, hdone⟩ : ∃ c,
      program.runBelow awaits 10 start stopDuringStart = some c ∧
        c.shared.phase.phase = .recording ∧ c.shared.manager = none ∧
        ∀ t < 10, runs (c.tasks t) = false ∧ (c.tasks t).betweenAwaits = false :=
    ⟨_, rfl, rfl, rfl, by decide⟩
  have hidle : ∀ t, runs (c.tasks t) = false ∧ (c.tasks t).betweenAwaits = false :=
    Tasks.Program.forall_of_runBelow
      (P := fun a => runs a = false ∧ ServiceTask.betweenAwaits a = false) hrun
      (fun _ _ => ⟨rfl, rfl⟩) hdone
  have hfree : ∀ env s a, awaits.stepBeside env s a .free := fun _ _ _ => rfl
  have hreach : Tasks.Reaches program awaits start c :=
    .of_runBelow (fun _ => trivial) hfree (fun _ _ => rfl) .refl hrun
  obtain ⟨hrecording, -⟩ := h c hreach (fun t => (hidle t).1) fun t => (hidle t).2
  obtain ⟨m, hm, -⟩ := hrecording.mp hphase
  rw [hmanager] at hm
  cases hm

end RecordingService

end MeetilyLocal
