import MeetilyLocal.Recording.SessionStates

/-!
# A fatal error stops the recording

`report_error` calls the error callback once in a session, and the callback spawns one stop. That
stop looks into the slot, where the manager of a start is not yet, and gives up; so does a stop that
is refused its flag. Where no stop gives up before an errored session, no session is left that is
errored and records once all has finished (`RecordingService.allStopped_of_reaches`).
-/

namespace MeetilyLocal

/-- The session is errored and records. -/
def Service.unstopped (s : Service) (m : SessionId) : Bool :=
  (s.sessions m).state.errored && (s.sessions m).state.isRecording

/-- The session in the slot is errored and records. -/
def Service.slotUnstopped (s : Service) : Bool :=
  match s.manager with
  | some m => s.unstopped m
  | none => false

/-- The session that a start has in its hands and that does not record. -/
def StartPc.quiet : StartPc → Option SessionId
  | .beginRecording m | .dropManager m => some m
  | .emitIdle created => created
  | _ => none

/-- The session that a stop has in its hands and that does not record. -/
def StopPc.quiet : StopPc → Option SessionId
  | .stopStreams m | .cleanup m | .replay m | .putBack m => some m
  | _ => none

namespace ServiceTask

/-- The session that a task has in its hands and that does not record. -/
def quiet : ServiceTask → Option SessionId
  | .start _ pc => pc.quiet
  | .stop _ pc => pc.quiet
  | _ => none

/-- The task will stop a session that is errored and records, or see to it that another one does:
its error callback runs, it is a stop that may take its manager out, or it is about to silence or
drop it. -/
def rescues (m : SessionId) : ServiceTask → Bool
  | .report other _ .lockCallback => other == m
  | .report other _ .setMessage => other == m
  | .report other _ .emitError => other == m
  | .report other _ .spawnStop => other == m
  | .stop _ .checkManager => true
  | .stop _ .loadStop => true
  | .stop _ .tryStop => true
  | .stop _ .readPhase => true
  | .stop _ .readMeeting => true
  | .stop _ .emitStopping => true
  | .stop _ .take => true
  | .stop _ (.stopRecording other) => other == m
  | .stop _ (.save taken) => taken == some m
  | .start _ (.abortStart other) => other == m
  | _ => false

theorem owns_of_quiet {a : ServiceTask} {m : SessionId} (h : a.quiet = some m) :
    a.role.owns = some m := by
  cases a with
  | start pool pc => cases pc <;> first | exact h | cases h
  | stop call pc => cases pc <;> first | exact h | cases h
  | _ => cases h

theorem role_of_quiet {a : ServiceTask} {m other : SessionId} (h : a.quiet = some m) :
    a.role ≠ .startRecords other := by
  cases a with
  | start pool pc => cases pc <;> first | (cases h; done) | exact nofun
  | stop call pc => cases pc <;> exact nofun
  | _ => cases h

theorem rescues_of_role {a : ServiceTask} {m : SessionId} (h : a.role = .stopBegins) :
    a.rescues m = true := by
  cases a with
  | start pool pc => cases pc <;> cases h
  | stop call pc => cases pc <;> first | (cases h; done) | rfl
  | _ => cases h

/-- Who has a manager. -/
theorem cases_of_owns {a : ServiceTask} {m : SessionId} (h : a.role.owns = some m) :
    a.role = .startRecords m ∨ a.rescues m = true ∨ a.quiet = some m := by
  cases a with
  | start pool pc =>
    cases pc with
    | beginRecording other => exact .inr (.inr h)
    | emitIdle created => exact .inr (.inr h)
    | dropManager other => exact .inr (.inr h)
    | abortStart other =>
      cases h
      exact .inr (.inl (beq_self_eq_true m))
    | _ => first | (cases h; done) | (cases h; exact .inl rfl)
  | stop call pc =>
    cases pc with
    | stopRecording other =>
      cases h
      exact .inr (.inl (beq_self_eq_true m))
    | save taken =>
      cases h
      exact .inr (.inl (beq_self_eq_true (some m)))
    | _ => first | (cases h; done) | exact .inr (.inr h)
  | _ => cases h

end ServiceTask

namespace RecordingService

variable {env : Env} {s : Service} {a : ServiceTask} {m : SessionId}
  {move : Tasks.Move Service ServiceTask}

/-! ## What a step can do -/

theorem recording_of_unstopped (h : s.unstopped m = true) :
    (s.sessions m).state.isRecording = true := by
  rw [Service.unstopped, Bool.and_eq_true] at h
  exact h.2

/-- A session that is errored and records afterwards was so before, or its callback is called. -/
theorem unstopped_of_step (h : step env s a = some move)
    (hun : move.shared.unstopped m = true) :
    s.unstopped m = true ∨ ∃ error, move.task = .report m error .lockCallback := by
  have hchange := stateChange_of_step h m
  obtain ⟨herrored, hrecords⟩ : (move.shared.sessions m).state.errored = true ∧
      (move.shared.sessions m).state.isRecording = true := by
    simpa [Service.unstopped] using hun
  generalize (move.shared.sessions m).state = y at hchange herrored hrecords
  have hbefore : (s.sessions m).state.errored = true → (s.sessions m).state.isRecording = true →
      s.unstopped m = true := fun he hr => by simp [Service.unstopped, he, hr]
  cases hchange with
  | stays => exact .inl (hbefore herrored hrecords)
  | counts => exact .inl (hbefore herrored hrecords)
  | marks error ha hgoes =>
    rcases hclear : (s.sessions m).state.errored with _ | _
    · exact .inr ⟨error, hgoes hclear⟩
    · exact .inl (hbefore hclear hrecords)
  | toggles => exact .inl (hbefore herrored hrecords)
  | created => cases hrecords
  | begun => cases herrored
  | stopped => cases hrecords
  | cleaned => cases hrecords
  | replaced => cases hrecords

/-- A task is given a new manager by creating it. -/
theorem created_of_step (h : step env s a = some move) (hrole : move.task.role = .startOwns m) :
    (move.shared.sessions m).state = RecordingState.new.setErrorCallback := by
  cases a with
  | start pool pc =>
    cases pc with
    | create =>
      cases h
      cases hrole
      simp [Service.update, Session.new]
    | emitIdle created => rcases created with _ | m' <;> cases h <;> cases hrole
    | _ => grind [step, startStep, goTo, waitFor, ServiceTask.role, StartPc.role]
  | stop call pc =>
    cases pc with
    | save taken =>
      rcases taken with _ | m' <;>
        grind [step, stopStep, goTo, waitFor, ServiceTask.role, StopPc.role]
    | _ => grind [step, stopStep, goTo, waitFor, ServiceTask.role, StopPc.role]
  | toggle resume pc => rw [(slot_toggleStep h).2] at hrole; cases hrole
  | report m' error pc => rw [(slot_reportStep h).2] at hrole; cases hrole
  | worker m' pc => rw [(slot_workerStep h).2] at hrole; cases hrole
  | _ => cases h

/-- A session that does not record in the hands of a task afterwards. -/
theorem quiet_of_step (h : step env s a = some move) (hquiet : move.task.quiet = some m) :
    (move.shared.sessions m).state.isRecording = false ∨ a.quiet = some m := by
  cases a with
  | start pool pc =>
    cases pc with
    | create =>
      cases h
      cases hquiet
      exact .inl (by simp [Service.update, Session.new, RecordingState.new,
        RecordingState.setErrorCallback])
    | abortStart m' =>
      cases h
      cases hquiet
      exact .inl (by simp [Service.update, RecordingState.stopRecording])
    | emitIdle created =>
      rcases created with _ | m'
      · cases h
        cases hquiet
      · cases h
        exact .inr hquiet
    | _ => grind [step, startStep, goTo, waitFor, ServiceTask.quiet, StartPc.quiet]
  | stop call pc =>
    cases pc with
    | stopRecording m' =>
      cases h
      cases hquiet
      exact .inl (by simp [Service.update, RecordingState.stopRecording])
    | save taken =>
      rcases taken with _ | m' <;>
        grind [step, stopStep, goTo, waitFor, ServiceTask.quiet, StopPc.quiet]
    | _ => grind [step, stopStep, goTo, waitFor, ServiceTask.quiet, StopPc.quiet]
  | toggle resume pc =>
    have howns := ServiceTask.owns_of_quiet hquiet
    rw [(slot_toggleStep h).2] at howns
    cases howns
  | report m' error pc =>
    have howns := ServiceTask.owns_of_quiet hquiet
    rw [(slot_reportStep h).2] at howns
    cases howns
  | worker m' pc =>
    have howns := ServiceTask.owns_of_quiet hquiet
    rw [(slot_workerStep h).2] at howns
    cases howns
  | _ => cases h

/-! ## What holds of the states -/

/-- A session that records has its callback, and so has one that is about to begin; what a task has
in its hands at certain points does not record. -/
def settled : Tasks.Assertions Service ServiceTask where
  shared s := ∀ m, (s.sessions m).state.isRecording = true →
    (s.sessions m).state.errorCallback = true
  own s a := (∀ m, a.role = .startOwns m → (s.sessions m).state.errorCallback = true) ∧
    ∀ m, a.quiet = some m → (s.sessions m).state.isRecording = false
  pair _ _ := True

theorem settled_own {s : Service} {a : ServiceTask} (h : a.role.owns = none) :
    settled.own s a := by
  refine ⟨fun m hrole => ?_, fun m hquiet => ?_⟩
  · rw [hrole] at h
    cases h
  · rw [ServiceTask.owns_of_quiet hquiet] at h
    cases h

/-- A step leaves the callback of a session that another task has. -/
theorem errorCallback_of_step {b : ServiceTask} (h : step env s a = some move)
    (howns : b.role.owns = some m) (howned : b.role.Owned s.slot) (hapart : a.role.Apart b.role)
    (hcallback : (s.sessions m).state.errorCallback = true) :
    (move.shared.sessions m).state.errorCallback = true := by
  have hchange := stateChange_of_step h m
  obtain ⟨hknown, hslot⟩ := howned m howns
  generalize (move.shared.sessions m).state = y at hchange
  cases hchange with
  | created hnew => exact absurd hnew (Nat.ne_of_lt hknown)
  | cleaned hmine => exact absurd howns (hapart m hmine)
  | replaced hin => exact absurd hin hslot
  | _ => exact hcallback

theorem stable_settled {d : Tasks.Discipline Service ServiceTask Env ServiceCall} :
    Tasks.Assertions.Stable owned settled program d where
  symm _ := trivial
  call {k s s' a} _ hs hbegins := by
    refine ⟨fun m hrecords => ?_, settled_own (owns_begins hbegins)⟩
    rw [sameStates_begins hbegins m] at hrecords ⊢
    exact hs.2 m hrecords
  callBeside {k s s' a b} _ _ _ hb hbegins := by
    refine ⟨⟨fun m hrole => ?_, fun m hquiet => ?_⟩, trivial⟩
    · rw [sameStates_begins hbegins m]
      exact hb.2.1 m hrole
    · rw [sameStates_begins hbegins m]
      exact hb.2.2 m hquiet
  step {env s a move} htaken := by
    obtain ⟨-, ⟨-, hs⟩, ⟨-, hown⟩, heq⟩ := htaken
    refine ⟨fun m hrecords => ?_, fun m hrole => ?_, fun m hquiet => ?_⟩
    · have hchange := stateChange_of_step heq m
      generalize (move.shared.sessions m).state = y at hchange hrecords ⊢
      cases hchange with
      | begun hrole => exact hown.1 m hrole
      | created => cases hrecords
      | stopped => cases hrecords
      | cleaned => cases hrecords
      | replaced => cases hrecords
      | _ => exact hs m hrecords
    · rw [created_of_step heq hrole]
      rfl
    · rcases quiet_of_step heq hquiet with hquiet' | hquiet'
      · exact hquiet'
      · -- only its own start makes a session record
        rcases hrecords : (move.shared.sessions m).state.isRecording with _ | _
        · rfl
        · rcases (slotStep_of_step heq).recording hrecords with hbefore | ⟨-, hrole⟩
          · exact absurd ((hown.2 m hquiet').symm.trans hbefore) nofun
          · exact absurd hrole (ServiceTask.role_of_quiet hquiet)
  beside {env s a b move} hbeside := by
    obtain ⟨⟨-, -, -, heq⟩, -, ⟨howned, hb⟩, hapart, -⟩ := hbeside
    refine ⟨⟨fun m hrole => ?_, fun m hquiet => ?_⟩, trivial⟩
    · exact errorCallback_of_step heq (by rw [hrole]; rfl) howned hapart (hb.1 m hrole)
    · rcases hrecords : (move.shared.sessions m).state.isRecording with _ | _
      · rfl
      · rcases (slotStep_of_step heq).recording hrecords with hbefore | ⟨hrole, -⟩
        · exact absurd ((hb.2 m hquiet).symm.trans hbefore) nofun
        · exact absurd (ServiceTask.owns_of_quiet hquiet) (hapart m (by rw [hrole]; rfl))
  spawn {env s a child move} htaken hspawned :=
    ⟨settled_own (owns_spawned htaken.eq hspawned), trivial⟩
  spawnBeside _ _ := trivial

theorem hold_settled {d : Tasks.Discipline Service ServiceTask Env ServiceCall}
    {c : Tasks.Config Service ServiceTask} (h : Tasks.Reaches program d start c) :
    settled.Hold c := by
  refine stable_settled.of_reaches (fun _ => hold_owned) ?_ h
  exact ⟨fun _ _ => rfl, fun _ => settled_own rfl, fun _ _ _ => trivial⟩

/-! ## Stops that give up -/

/-- A stop that finds no manager, is refused its flag, or goes on without the session. -/
def givesUp (s : Service) : ServiceTask → Bool
  | .stop _ .loadStop => !s.stopInProgress
  | .stop _ .tryStop => s.stopInProgress
  | .stop _ .take => true
  | _ => false

/-- A start with a session that is errored and records, which it has not stored yet. -/
def startsErrored (s : Service) (a : ServiceTask) : Bool :=
  match a.role with
  | .startRecords m => s.unstopped m
  | _ => false

/-- A stop that saw no manager. -/
def sawNoManager : ServiceTask → Bool
  | .stop _ .loadStop => true
  | _ => false

/-- A stop that wants its flag. -/
def wantsStop : ServiceTask → Bool
  | .stop _ .tryStop => true
  | _ => false

/-- No stop gives up while a start has a session that is errored and records, or while the slot has
one that the stop which has the flag does not come to take. -/
def noStopGivesUp : Tasks.Discipline Service ServiceTask Env ServiceCall where
  call _ _ := True
  callBeside _ _ := True
  step _ s a := sawNoManager a = true → s.stopInProgress = false → s.slotUnstopped = false
  stepBeside _ s a b := (givesUp s a = true → startsErrored s b = false) ∧
    (wantsStop a = true → b.role.holdsStop = true → b.role ≠ .stopBegins →
      s.slotUnstopped = false)

/-- A session that is errored and records, and is not in the slot: a start is about to store it, or
a task is about to stop it. -/
theorem exists_of_unstopped {d : Tasks.Discipline Service ServiceTask Env ServiceCall}
    {c : Tasks.Config Service ServiceTask} (hreach : Tasks.Reaches program d start c)
    (hun : c.shared.unstopped m = true) (hslot : c.shared.manager ≠ some m) :
    ∃ u, (c.tasks u).role.owns = some m ∧
      (startsErrored c.shared (c.tasks u) = true ∨ (c.tasks u).rescues m = true) := by
  have hrecords := recording_of_unstopped hun
  rcases exists_owner hreach hrecords with hin | ⟨u, howns⟩
  · exact absurd hin hslot
  · refine ⟨u, howns, ?_⟩
    rcases ServiceTask.cases_of_owns howns with hrole | hrescues | hquiet
    · exact .inl (by rw [startsErrored, hrole]; exact hun)
    · exact .inr hrescues
    · have hquiet' := ((hold_settled hreach).own u).2 m hquiet
      exact absurd (hquiet'.symm.trans hrecords) nofun

/-- A stop that gives up is not the last one to see to a session. -/
theorem not_givesUp {c : Tasks.Config Service ServiceTask} {t child : ℕ}
    (hreach : Tasks.Reaches program noStopGivesUp start c)
    (hallow : noStopGivesUp.Allows c (.run t env child))
    (hgives : givesUp c.shared (c.tasks t) = true)
    (hun : c.shared.unstopped m = true) (hslot : c.shared.manager ≠ some m) :
    ∃ u ≠ t, (c.tasks u).rescues m = true := by
  obtain ⟨-, hbeside⟩ := hallow
  obtain ⟨u, howns, hu⟩ := exists_of_unstopped hreach hun hslot
  have hne : u ≠ t := by
    rintro rfl
    generalize c.tasks u = a at hgives howns
    cases a with
    | stop call pc => cases pc <;> first | (cases howns; done) | cases hgives
    | _ => cases hgives
  rcases hu with hstarts | hrescues
  · exact absurd (((hbeside u hne).1 hgives).symm.trans hstarts) nofun
  · exact ⟨u, hne, hrescues⟩

/-- Someone sees to a session that is errored and records. -/
theorem absent_rescues (m : SessionId) :
    Tasks.Absent (Tasks.Reaches program noStopGivesUp start) program noStopGivesUp
      (fun a => a.rescues m = true) (fun s => s.unstopped m = false) where
  free {a} hfree := by cases a <;> first | (cases hfree; done) | exact Bool.false_ne_true
  call {c t k s' a} _ _ hbegins _ hstopped := by
    rw [Service.unstopped, sameStates_begins hbegins m]
    exact hstopped
  stay {c t child env move} _ _ hstep _ hmoved hstopped := by
    rcases hun : move.shared.unstopped m with _ | _
    · rfl
    · rcases unstopped_of_step hstep hun with hbefore | ⟨error, htask⟩
      · exact absurd (hstopped.symm.trans hbefore) nofun
      · rw [htask] at hmoved
        exact absurd (beq_self_eq_true m) hmoved
  leave {c t child env move} hreach hallow hstep hbusy hmoved hothers hspawned := by
    rcases hun : move.shared.unstopped m with _ | _
    · rfl
    exfalso
    have hbefore : c.shared.unstopped m = true := by
      rcases unstopped_of_step hstep hun with hbefore | ⟨error, htask⟩
      · exact hbefore
      · rw [htask] at hmoved
        exact absurd (beq_self_eq_true m) hmoved
    -- a stop may give up only where another task sees to the session
    have hlast : givesUp c.shared (c.tasks t) = true → c.shared.manager = some m := by
      intro hgives
      by_contra hslot
      obtain ⟨u, hne, hrescues⟩ := not_givesUp hreach hallow hgives hbefore hslot
      exact hothers u hne hrescues
    obtain ⟨hfinds, hbeside⟩ := hallow
    cases ha : c.tasks t with
    | free => rw [ha] at hstep; cases hstep
    | finished => rw [ha] at hstep; cases hstep
    | toggle resume pc => rw [ha] at hbusy; cases hbusy
    | worker m' pc => rw [ha] at hbusy; cases hbusy
    | start pool pc =>
      rw [ha] at hstep hbusy
      cases pc with
      | abortStart other =>
        cases hstep
        obtain rfl : other = m := eq_of_beq hbusy
        simp [Service.unstopped, Service.update, RecordingState.stopRecording] at hun
      | _ => cases hbusy
    | report other error pc =>
      rw [ha] at hstep hbusy
      cases pc with
      | lockCallback =>
        -- a session that records has its callback
        obtain rfl : other = m := eq_of_beq hbusy
        have hcallback := (hold_settled hreach).shared other (recording_of_unstopped hbefore)
        obtain ⟨-, hstep⟩ := of_waitFor hstep
        rw [if_pos hcallback] at hstep
        cases hstep
        exact hmoved hbusy
      | setMessage => cases hstep; exact hmoved hbusy
      | emitError => cases hstep; exact hmoved hbusy
      | spawnStop => cases hstep; exact hspawned _ rfl rfl
      | _ => cases hbusy
    | stop call pc =>
      rw [ha] at hstep hbusy hlast
      cases pc with
      | checkManager =>
        cases hstep
        split at hmoved <;> exact hmoved rfl
      | loadStop =>
        rcases hstop : c.shared.stopInProgress with _ | _
        · have hslot := hlast (by rw [givesUp, hstop]; rfl)
          have hstopped := hfinds (by rw [ha]; rfl) hstop
          rw [Service.slotUnstopped, hslot] at hstopped
          exact absurd (hstopped.symm.trans hbefore) nofun
        · cases hstep
          rw [hstop] at hmoved
          exact hmoved rfl
      | tryStop =>
        rcases hstop : c.shared.stopInProgress with _ | _
        · replace hstep : stopStep call env c.shared .tryStop = some move := hstep
          rw [stopStep, hstop] at hstep
          cases hstep
          exact hmoved rfl
        · -- the stop that has the flag will take the manager, or has come too late
          have hslot := hlast hstop
          obtain ⟨u, hheld⟩ := stopGuard.exists_holds rfl hreach hstop
          have hne : u ≠ t := by
            rintro rfl
            rw [ha] at hheld
            cases hheld
          rcases eq_or_ne (c.tasks u).role .stopBegins with hbegins | hbegins
          · exact hothers u hne (ServiceTask.rescues_of_role hbegins)
          · have hstopped := (hbeside u hne).2 (by rw [ha]; rfl) hheld hbegins
            rw [Service.slotUnstopped, hslot] at hstopped
            exact absurd (hstopped.symm.trans hbefore) nofun
      | readPhase => cases hstep; exact hmoved rfl
      | readMeeting => cases hstep; exact hmoved rfl
      | emitStopping => cases hstep; exact hmoved rfl
      | take =>
        cases hstep
        rw [hlast rfl] at hmoved
        exact hmoved (beq_self_eq_true m)
      | stopRecording other =>
        cases hstep
        obtain rfl : other = m := eq_of_beq hbusy
        simp [Service.unstopped, Service.update, RecordingState.stopRecording] at hun
      | save taken =>
        obtain rfl : taken = some m := eq_of_beq hbusy
        obtain ⟨-, hstep⟩ := of_waitFor hstep
        cases hstep
        simp [Service.unstopped, Service.dropManager, Service.update, RecordingState.cleanup] at hun
      | _ => cases hbusy

/-! ## When all has finished -/

/-- A start, a stop or a report that has not finished. -/
def underWay : ServiceTask → Bool
  | .start _ _ => true
  | .stop _ _ => true
  | .report _ _ _ => true
  | _ => false

/-- Once all starts, stops and reports have finished, no session is left that is errored and
records, neither in the slot nor elsewhere. -/
def AllStopped (c : Tasks.Config Service ServiceTask) : Prop :=
  (∀ t, underWay (c.tasks t) = false) → ∀ m,
    ¬((c.shared.sessions m).state.errored = true ∧ (c.shared.sessions m).state.isRecording = true)

/-- **A fatal error stops the recording.** While no stop gives up before an errored session, none is
left that records. -/
theorem allStopped_of_reaches {c : Tasks.Config Service ServiceTask}
    (h : Tasks.Reaches program noStopGivesUp start c) : AllStopped c := by
  rintro hidle m ⟨herrored, hrecords⟩
  have hnobody : ∀ t, ¬(c.tasks t).rescues m = true := by
    intro t hrescues
    have hdone := hidle t
    generalize c.tasks t = a at hrescues hdone
    cases a <;> first | cases hrescues | cases hdone
  have hstopped : c.shared.unstopped m = false :=
    (absent_rescues m).of_reaches (fun _ => id) (fun _ => rfl) h hnobody
  rw [Service.unstopped, herrored, hrecords] at hstopped
  cases hstopped

/-! ### An error while recording, and one during the start -/

instance (k : ServiceCall) (s : Service) : Decidable (noStopGivesUp.call k s) :=
  inferInstanceAs (Decidable True)

instance (k : ServiceCall) (b : ServiceTask) : Decidable (noStopGivesUp.callBeside k b) :=
  inferInstanceAs (Decidable True)

instance (env : Env) (s : Service) (a : ServiceTask) : Decidable (noStopGivesUp.step env s a) :=
  inferInstanceAs (Decidable (sawNoManager a = true → s.stopInProgress = false →
    s.slotUnstopped = false))

instance (env : Env) (s : Service) (a b : ServiceTask) :
    Decidable (noStopGivesUp.stepBeside env s a b) :=
  inferInstanceAs (Decidable ((givesUp s a = true → startsErrored s b = false) ∧
    (wantsStop a = true → b.role.holdsStop = true → b.role ≠ .stopBegins →
      s.slotUnstopped = false)))

/-- A recording starts, its channel closes, and the stop that the error spawns saves it. -/
def errorWhileRecording : List (Tasks.Label Env ServiceCall) :=
  .call 0 (.start false) :: List.replicate 18 (.run 0 ⟨true, true, 0⟩ 1) ++
    .call 2 (.report 0 .channelClosed) :: List.replicate 6 (.run 2 ⟨true, true, 0⟩ 3) ++
    .run 1 ⟨false, true, 0⟩ 9 :: List.replicate 22 (.run 3 ⟨true, true, 0⟩ 9)

/-- The channel closes before the start stores the manager, and the stop finds nothing to stop. -/
def errorWhileStarting : List (Tasks.Label Env ServiceCall) :=
  .call 0 (.start false) :: List.replicate 8 (.run 0 ⟨true, true, 0⟩ 1) ++
    .call 2 (.report 0 .channelClosed) :: List.replicate 6 (.run 2 ⟨true, true, 0⟩ 3) ++
    List.replicate 2 (.run 3 ⟨true, true, 0⟩ 9) ++ List.replicate 10 (.run 0 ⟨true, true, 0⟩ 1)

/-- A recording that its error stopped. -/
theorem allStopped_errorWhileRecording :
    ∃ c, program.runBelow noStopGivesUp 10 start errorWhileRecording = some c ∧
      (∀ t, underWay (c.tasks t) = false) ∧ AllStopped c := by
  obtain ⟨c, hrun, hdone⟩ := Option.map_eq_some_iff.mp
    (show (program.runBelow noStopGivesUp 10 start errorWhileRecording).map (fun c =>
      (List.range 10).all fun t => !underWay (c.tasks t)) = some true from rfl)
  have hreach : Tasks.Reaches program noStopGivesUp start c :=
    .of_runBelow (fun _ => trivial)
      (fun _ _ _ => by exact ⟨fun _ => rfl, fun _ => nofun⟩)
      (fun _ _ => rfl) .refl hrun
  have hidle := Tasks.Program.idle_of_runBelow hrun (fun _ _ => rfl) hdone
  exact ⟨c, hrun, hidle, allStopped_of_reaches hreach⟩

/-- In general an errored recording is left in the slot. -/
theorem not_allStopped_errorWhileStarting :
    ¬∀ c, Tasks.Reaches program .free start c → (∀ t, underWay (c.tasks t) = false) →
      ∀ m, c.shared.manager = some m → ¬((c.shared.sessions m).state.errored = true ∧
        (c.shared.sessions m).state.isRecording = true) := by
  intro h
  obtain ⟨c, hrun, hc⟩ := Option.map_eq_some_iff.mp
    (show (program.runBelow .free 10 start errorWhileStarting).map (fun c =>
      ((List.range 10).all fun t => !underWay (c.tasks t), c.shared.manager,
        (c.shared.sessions 0).state.errored, (c.shared.sessions 0).state.isRecording)) =
      some (true, some 0, true, true) from rfl)
  obtain ⟨hdone, hc⟩ := Prod.mk.inj hc
  obtain ⟨hmanager, hc⟩ := Prod.mk.inj hc
  obtain ⟨herrored, hrecords⟩ := Prod.mk.inj hc
  have hreach : Tasks.Reaches program .free start c := .of_runBelow_free (fun _ _ => rfl) hrun
  have hidle := Tasks.Program.idle_of_runBelow hrun (fun _ _ => rfl) hdone
  exact h c hreach hidle 0 hmanager ⟨herrored, hrecords⟩

end RecordingService

end MeetilyLocal
