import MeetilyLocal.Library.TaskSimulation
import MeetilyLocal.Recording.PhaseTable

/-!
# Leaving the program

The embedding of `finish_recording_for_exit` (`bootstrap.rs`), which is to see a recording to its
end before the program exits, beside the flows of the recording service. It looks for a recording
and then for a stop, and calls `stop` where it sees one of them; what `stop` answers is logged.

A stop that is refused because another one is in progress answers at once, and a start that has not
yet stored its manager is not seen. While no stop of an exit is refused, and no start stores a
manager behind an exit that no longer looks for one, an exit returns only when there is nothing left
to save (`RecordingService.finished_of_reaches`).

The tasks of the service run as they did without exits (`RecordingService.exit_simulates`), so that
what is known of their runs holds here as well.
-/

namespace MeetilyLocal

/-- A task of the service, or one that leaves the program. -/
inductive ExitTask : Type where
  /-- a task of the service -/
  | service : ServiceTask → ExitTask
  /-- `is_recording().await` in `finish_recording_for_exit`; its context has a database or not -/
  | checkRecording : Bool → ExitTask
  /-- `is_stop_in_progress()` in `finish_recording_for_exit` -/
  | loadStop : Bool → ExitTask
  /-- the stop that it calls -/
  | stopping : StopCall → StopPc → ExitTask
  /-- it has returned, and has called a stop or not -/
  | returned : Bool → ExitTask

/-- The calls from outside. -/
inductive ExitCall : Type where
  /-- a call of the service -/
  | service : ServiceCall → ExitCall
  /-- `finish_recording_for_exit`, whose context has a database or not -/
  | finishRecordingForExit : Bool → ExitCall

/-- The task of the service that is seen. -/
def ExitTask.seen : ExitTask → ServiceTask
  | .service a => a
  | .stopping call pc => .stop call pc
  | .returned true => .finished
  | .checkRecording _ | .loadStop _ | .returned false => .free

/-- A stop that does not look at the manager any more. -/
def StopPc.blind : StopPc → Bool
  | .loadStop | .save _ | .finaliseRow | .emitStopped | .emitIdle | .release => true
  | _ => false

namespace RecordingService

/-- An exit whose stop has taken a step. -/
def exitStopped : ServiceTask → ExitTask
  | .stop call pc => .stopping call pc
  | _ => .returned true

/-- `recording_service::stop` is called. -/
def exitStop (pool : Bool) : ExitTask := .stopping ⟨pool, false, none⟩ .checkManager

/-- One step of a task, with `finish_recording_for_exit`. -/
def exitStep (env : Env) (s : Service) : ExitTask → Option (Tasks.Move Service ExitTask)
  | .service a =>
    (step env s a).map fun move => ⟨move.shared, .service move.task, move.spawned.map .service⟩
  | .checkRecording pool => some ⟨s, if s.isRecording then exitStop pool else .loadStop pool, none⟩
  | .loadStop pool =>
    some ⟨s, if s.stopInProgress then exitStop pool else .returned false, none⟩
  | .stopping call pc =>
    (stopStep call env s pc).map fun move =>
      ⟨move.shared, exitStopped move.task, move.spawned.map .service⟩
  | .returned _ => none

/-- How a call from outside begins. -/
def exitBegins : ExitCall → Service → Option (Service × ExitTask)
  | .service k, s => (begins k s).map fun begun => (begun.1, .service begun.2)
  | .finishRecordingForExit pool, s => some (s, .checkRecording pool)

/-- The program of the service with exits. -/
def exitProgram : Tasks.Program Service ExitTask Env ExitCall where
  isFree a := match a with | .service a => program.isFree a | _ => false
  begins := exitBegins
  step := exitStep

/-- The configuration at program start. -/
def exitStart : Tasks.Config Service ExitTask := ⟨.initial, fun _ => .service .free⟩

/-- What a step of a stop can be, as far as an exit is concerned. -/
inductive StopMoves (s : Service) : StopPc → Service → ServiceTask → Prop where
  /-- it goes on, and looks at the slot as before -/
  | goesOn {pc pc' : StopPc} {s' : Service} {call : StopCall} :
      (pc'.blind = true → pc.blind = true) → StopMoves s pc s' (.stop call pc')
  /-- it finds the slot empty, or empties it -/
  | empties {pc pc' : StopPc} {s' : Service} {call : StopCall} : s'.manager = none →
      StopMoves s pc s' (.stop call pc')
  /-- there is nothing to stop -/
  | nothing : s.stopInProgress = false → StopMoves s .loadStop s .finished
  /-- it is refused -/
  | refused {s' : Service} : s.stopInProgress = true → StopMoves s .tryStop s' .finished
  /-- it clears the flag -/
  | releases : StopMoves s .release { s with stopInProgress := false } .finished

/-- It goes on, and still looks at the slot. -/
theorem StopMoves.looksOn {s s' : Service} {pc pc' : StopPc} {call : StopCall}
    (hlooks : pc'.blind = false) : StopMoves s pc s' (.stop call pc') :=
  .goesOn fun hblind => absurd (hlooks.symm.trans hblind) Bool.false_ne_true

theorem stopMoves_of_step {call : StopCall} {pc : StopPc} {env : Env} {s : Service}
    {move : Tasks.Move Service ServiceTask} (h : stopStep call env s pc = some move) :
    StopMoves s pc move.shared move.task := by
  cases pc with
  | checkManager =>
    cases h
    rcases hmanager : s.manager with _ | m
    · exact .empties hmanager
    · exact .looksOn rfl
  | loadStop =>
    cases h
    rcases hstop : s.stopInProgress with _ | _
    · exact .nothing hstop
    · exact .looksOn rfl
  | tryStop =>
    rw [stopStep] at h
    split at h
    · next hset =>
      cases h
      exact .refused hset
    · cases h
      exact .looksOn rfl
  | take => cases h; exact .empties rfl
  | stopStreams m =>
    obtain ⟨-, h⟩ := of_waitFor h
    cases h
    exact .looksOn rfl
  | cleanup m =>
    obtain ⟨-, h⟩ := of_waitFor h
    cases h
    exact .looksOn rfl
  | putBack m =>
    obtain ⟨-, h⟩ := of_waitFor h
    cases h
    exact .looksOn rfl
  | takeTask =>
    cases h
    rcases s.transcriptionTask with _ | m
    · exact .looksOn rfl
    · exact .looksOn rfl
  | drain m =>
    rw [stopStep] at h
    split at h
    · obtain ⟨-, h⟩ := of_waitFor h
      cases h
      exact .looksOn rfl
    · cases h
      exact .looksOn rfl
  | finalTake => cases h; exact .empties rfl
  | save taken =>
    rcases taken with _ | m
    · cases h
      exact .goesOn fun _ => rfl
    · obtain ⟨-, h⟩ := of_waitFor h
      cases h
      exact .goesOn fun _ => rfl
  | finaliseRow =>
    rw [stopStep] at h
    split at h
    · split at h <;> cases h <;> exact .goesOn fun _ => rfl
    · cases h
      exact .goesOn fun _ => rfl
  | emitStopped => cases h; exact .goesOn fun _ => rfl
  | emitIdle => cases h; exact .goesOn fun _ => rfl
  | release => cases h; exact .releases
  | _ => cases h; exact .looksOn rfl

/-- A stop goes on or finishes. -/
theorem seen_exitStopped {call : StopCall} {pc : StopPc} {env : Env} {s : Service}
    {move : Tasks.Move Service ServiceTask} (h : stopStep call env s pc = some move) :
    (exitStopped move.task).seen = move.task := by
  have hmoves := stopMoves_of_step h
  obtain ⟨s', task, spawned⟩ := move
  cases hmoves <;> rfl

theorem map_seen_service (spawned : Option ServiceTask) :
    (spawned.map ExitTask.service).map ExitTask.seen = spawned := by
  cases spawned <;> rfl

/-- The service runs as without exits. -/
theorem exit_simulates : Tasks.Simulates exitProgram program ExitTask.seen where
  free {a} hfree := by
    cases a with
    | service a => exact hfree
    | _ => cases hfree
  call {k s s' a b} hfree hbegins := by
    cases k with
    | service k =>
      obtain ⟨⟨begun, task⟩, hcall, heq⟩ := Option.map_eq_some_iff.mp hbegins
      obtain ⟨rfl, rfl⟩ := Prod.mk.inj heq
      exact .inr ⟨k, hcall⟩
    | finishRecordingForExit pool =>
      obtain ⟨rfl, rfl⟩ := Prod.mk.inj (Option.some.inj hbegins)
      refine .inl ⟨rfl, ?_⟩
      cases b with
      | service b => cases b <;> first | rfl | cases hfree
      | _ => cases hfree
  step {env s a move} hstep := by
    cases a with
    | service a =>
      obtain ⟨moved, hmoved, rfl⟩ := Option.map_eq_some_iff.mp hstep
      left
      rw [map_seen_service]
      exact hmoved
    | checkRecording pool =>
      obtain rfl := Option.some.inj hstep
      refine .inr ⟨rfl, ?_⟩
      rcases s.isRecording with _ | _
      · exact .inl ⟨rfl, rfl⟩
      · exact .inr ⟨rfl, .stop pool, rfl⟩
    | loadStop pool =>
      obtain rfl := Option.some.inj hstep
      refine .inr ⟨rfl, ?_⟩
      rcases s.stopInProgress with _ | _
      · exact .inl ⟨rfl, rfl⟩
      · exact .inr ⟨rfl, .stop pool, rfl⟩
    | stopping call pc =>
      obtain ⟨moved, hmoved, rfl⟩ := Option.map_eq_some_iff.mp hstep
      left
      rw [map_seen_service, seen_exitStopped hmoved]
      exact hmoved
    | returned => cases hstep

end RecordingService

/-! ## What an exit waits for -/

/-- An exit that does not look at the manager any more. -/
def ExitTask.blind : ExitTask → Bool
  | .loadStop _ => true
  | .stopping _ pc => pc.blind
  | _ => false

/-- The stop of an exit that is about to acquire its flag. -/
def ExitTask.wantsFlag : ExitTask → Bool
  | .stopping _ .tryStop => true
  | _ => false

/-- A start that is about to store its manager. -/
def ExitTask.startStores : ExitTask → Bool
  | .service (.start _ (.store _)) => true
  | _ => false

/-- An exit is not a start. -/
theorem ExitTask.startStores_of_blind {a : ExitTask} (h : a.blind = true) :
    a.startStores = false := by
  cases a with
  | loadStop _ | stopping _ _ => rfl
  | _ => cases h

/-- No stop of an exit is refused, and no start stores a manager while an exit does not look any
more. -/
def RecordingService.exitWaits : Tasks.Discipline Service ExitTask Env ExitCall where
  call _ _ := True
  callBeside _ _ := True
  step _ s a := a.wantsFlag = true → s.stopInProgress = false
  stepBeside _ _ a b := a.startStores = true → b.blind = false

/-- A stop that has its flag, and has not taken the manager out for good. -/
def Role.finishing : Role → Bool
  | .stopBegins | .stopCarries _ | .stopDrains => true
  | _ => false

theorem Role.holdsStop_of_finishing {r : Role} (h : r.finishing = true) : r.holdsStop = true := by
  cases r <;> first | rfl | cases h

namespace SlotStep

variable {σ σ' : Slot} {r r' : Role} {m : SessionId}

/-- A stop that is finishing goes on to do so, or has emptied the slot. -/
theorem finishing (h : SlotStep σ r σ' r') (hr : r.finishing = true) :
    r'.finishing = true ∨ σ'.manager = none := by
  cases h with
  | stays => exact .inl hr
  | takes => exact .inl rfl
  | takesNothing => exact .inl rfl
  | silences => exact .inl rfl
  | putsBack => exact .inl rfl
  | takesAll => exact .inr rfl
  | _ => cases hr

/-- What is in the slot was there, or is stored by a start or by a stop that is finishing. -/
theorem manager_cases (h : SlotStep σ r σ' r') (hm : σ'.manager = some m) :
    σ.manager = some m ∨ r'.finishing = true ∨ (r = .startRecords m ∧ r' = .startEnds) := by
  cases h with
  | stores =>
    rw [Slot.manager_store] at hm
    obtain rfl := Option.some.inj hm
    exact .inr (.inr ⟨rfl, rfl⟩)
  | putsBack => exact .inr (.inl rfl)
  | takes => cases hm
  | takesNothing => cases hm
  | takesAll => cases hm
  | _ => exact .inl hm

/-- The manager in the slot records, unless a stop is finishing. -/
theorem settled (h : SlotStep σ r σ' r') (hknown : σ.Known) (howned : r.Owned σ)
    (hrecords : ∀ m, r = .startRecords m → σ.recording m = true)
    (hsettled : r.finishing = false → ∀ m, σ.manager = some m → σ.recording m = true)
    (hnot : r'.finishing = false) : ∀ m, σ'.manager = some m → σ'.recording m = true := by
  -- what a task has in its hands is not in the slot
  have hkeeps : ∀ {other recording}, r.owns = some other → r.finishing = false →
      ∀ m, (σ.setRecording other recording).manager = some m →
        (σ.setRecording other recording).recording m = true := by
    intro other recording hother hr m hm
    have hne : m ≠ other := fun heq => (howned other hother).2 (heq ▸ hm)
    rw [Slot.recording_setRecording_of_ne hne]
    exact hsettled hr m hm
  cases h with
  | stays => exact hsettled hnot
  | creates =>
    intro m hm
    have hne : m ≠ σ.nextSession := Nat.ne_of_lt (hknown m hm)
    exact (Slot.recording_setRecording_of_ne hne).trans (hsettled rfl m hm)
  | begins => exact hkeeps rfl rfl
  | @stores stored =>
    intro m hm
    rw [Slot.manager_store] at hm
    obtain rfl := Option.some.inj hm
    rw [Slot.store]
    rcases hold : σ.manager with _ | old
    · exact hrecords stored rfl
    · have hne : stored ≠ old := fun heq => (howned stored rfl).2 (heq ▸ hold)
      exact (Slot.recording_setRecording_of_ne hne).trans (hrecords stored rfl)
  | undoes => exact hkeeps rfl rfl
  | undone => exact hkeeps rfl rfl
  | saves => exact hkeeps rfl rfl
  | takesAll =>
    intro m hm
    cases hm
  | stopAcquires => cases hnot
  | takes => cases hnot
  | takesNothing => cases hnot
  | silences => cases hnot
  | putsBack => cases hnot
  | _ => exact hsettled rfl

end SlotStep

namespace RecordingService

variable {env : Env} {s : Service}

/-- A manager in the slot records, or a stop is about to take it out. -/
theorem recording_or_finishing {d : Tasks.Discipline Service ServiceTask Env ServiceCall}
    {c : Tasks.Config Service ServiceTask} (h : Tasks.Reaches program d start c) {m : SessionId}
    (hm : c.shared.manager = some m) :
    (c.shared.sessions m).state.isRecording = true ∨
      ∃ t, (c.tasks t).role.finishing = true := by
  have hstep : ∀ {c : Tasks.Config Service ServiceTask} {t : ℕ} {env : Env}
      {move : Tasks.Move Service ServiceTask}, owned.Hold c ∧ fresh.Hold c →
      step env c.shared (c.tasks t) = some move →
      ((c.tasks t).role.finishing = false →
        ∀ m, c.shared.slot.manager = some m → c.shared.slot.recording m = true) →
      move.task.role.finishing = false →
      ∀ m, move.shared.slot.manager = some m → move.shared.slot.recording m = true := by
    intro c t env move hknown hstep hsettled hnot
    exact (slotStep_of_step hstep).settled hknown.1.shared (hknown.1.own t)
      (fun m hrole => congrArg Prod.fst ((hknown.2.own t).2 m hrole)) hsettled hnot
  have habsent : Tasks.Absent (fun c => owned.Hold c ∧ fresh.Hold c) program d
      (fun a => a.role.finishing = true)
      (fun s => ∀ m, s.slot.manager = some m → s.slot.recording m = true) := {
    free := by
      intro a hfree hfinishing
      cases a <;> first | cases hfinishing | cases hfree
    call := by
      intro c t k s' a _ _ hbegins _ hsettled
      rw [(slot_begins hbegins).1]
      exact hsettled
    stay := by
      intro c t child env move hknown _ hstep' _ hmoved hsettled
      exact hstep hknown hstep' (fun _ => hsettled) (Bool.not_eq_true _ ▸ hmoved)
    leave := by
      intro c t child env move hknown _ hstep' hbusy hmoved _ _
      refine hstep hknown hstep' (fun hidle => ?_) (Bool.not_eq_true _ ▸ hmoved)
      rw [hbusy] at hidle
      cases hidle }
  by_contra hneither
  obtain ⟨hsilent, hnone⟩ := not_or.mp hneither
  exact hsilent (habsent.of_reaches (fun c hreach => ⟨hold_owned hreach, hold_fresh hreach⟩)
    (fun _ _ => nofun) h (not_exists.mp hnone) m hm)

/-! ## Runs with exits -/

variable {a : ExitTask} {move : Tasks.Move Service ExitTask}

/-- A task that is seen takes the steps of the service, and others leave the slot alone. -/
theorem slot_of_exitStep (h : exitStep env s a = some move) :
    SlotStep s.slot a.seen.role move.shared.slot move.task.seen.role ∨
      (move.shared.slot = s.slot ∧ a.seen.role = .bystander ∧
        move.task.seen.role.finishing = false) := by
  rcases exit_simulates.step h with hstep | ⟨-, ⟨hshared, htask⟩ | ⟨hfree, k, hbegins⟩⟩
  · exact .inl (slotStep_of_step hstep)
  · rw [hshared, htask]
    exact .inl .stays
  · obtain ⟨hslot, hrole⟩ := slot_begins hbegins
    refine .inr ⟨hslot, ?_, ?_⟩
    · revert hfree
      cases a.seen <;> first | exact fun _ => rfl | exact nofun
    · rcases hrole with hrole | hrole | hrole <;> rw [hrole] <;> rfl

/-- Only a start that stores its manager gives up its manager for nothing but the flag. -/
theorem startStores_of_exitStep {m : SessionId} (h : exitStep env s a = some move)
    (hrole : a.seen.role = .startRecords m) (hmoved : move.task.seen.role = .startEnds) :
    a.startStores = true := by
  cases a with
  | service a =>
    obtain ⟨moved, hstep, rfl⟩ := Option.map_eq_some_iff.mp h
    cases a with
    | start pool pc =>
      cases pc with
      | store stored => rfl
      | startPipeline m =>
        rw [step, startStep] at hstep
        split at hstep <;> cases hstep <;> cases hmoved
      | startStreams m =>
        cases hstep
        rcases hok : env.ok with _ | _ <;> rw [hok] at hmoved <;> cases hmoved
      | setMeetingInfo m =>
        cases hstep
        rcases pool with _ | _ <;> cases hmoved
      | createRow m =>
        rw [step, startStep] at hstep
        split at hstep <;> cases hstep <;> cases hmoved
      | startWriter m =>
        cases hstep
        cases hmoved
      | _ => cases hrole
    | stop call pc => cases pc <;> cases hrole
    | _ => cases hrole
  | stopping call pc => cases pc <;> cases hrole
  | checkRecording => cases hrole
  | loadStop => cases hrole
  | returned stopped => cases stopped <;> cases hrole

/-- An exit stops to look when it has seen that nothing records, or that the slot is empty. -/
theorem blind_of_exitStep (h : exitStep env s a = some move) (hblind : move.task.blind = true) :
    a.blind = true ∨ move.shared.manager = none ∨
      (move.shared = s ∧ s.isRecording = false) := by
  cases a with
  | service a =>
    obtain ⟨moved, -, rfl⟩ := Option.map_eq_some_iff.mp h
    cases hblind
  | checkRecording pool =>
    obtain rfl := Option.some.inj h
    rcases hrecording : s.isRecording with _ | _
    · exact .inr (.inr ⟨rfl, rfl⟩)
    · rw [hrecording] at hblind
      cases hblind
  | loadStop => exact .inl rfl
  | returned => cases h
  | stopping call pc =>
    obtain ⟨moved, hstep, rfl⟩ := Option.map_eq_some_iff.mp h
    have hmoves := stopMoves_of_step hstep
    obtain ⟨s', task, spawned⟩ := moved
    cases hmoves with
    | goesOn hbefore => exact .inl (hbefore hblind)
    | empties hempty => exact .inr (.inl hempty)
    | nothing => cases hblind
    | refused => cases hblind
    | releases => cases hblind

/-- What is spawned belongs to the service. -/
theorem sees_of_spawned {child : ExitTask} (h : exitStep env s a = some move)
    (hspawned : move.spawned = some child) : child.blind = false := by
  have hservice : ∀ {spawned : Option ServiceTask}, spawned.map ExitTask.service = some child →
      child.blind = false := by
    intro spawned heq
    obtain ⟨task, -, rfl⟩ := Option.map_eq_some_iff.mp heq
    rfl
  cases a with
  | service a =>
    obtain ⟨moved, -, rfl⟩ := Option.map_eq_some_iff.mp h
    exact hservice hspawned
  | stopping call pc =>
    obtain ⟨moved, -, rfl⟩ := Option.map_eq_some_iff.mp h
    exact hservice hspawned
  | checkRecording => cases h; cases hspawned
  | loadStop => cases h; cases hspawned
  | returned => cases h

/-- How an exit returns. -/
theorem returned_cases {stopped : Bool} (h : exitStep env s a = some move)
    (hreturned : move.task = .returned stopped) :
    (a.blind = true ∧ move.shared = s ∧ s.stopInProgress = false) ∨
      (a.blind = true ∧ a.seen.role = .stopEnds ∧
        move.shared = { s with stopInProgress := false }) ∨
      (a.wantsFlag = true ∧ s.stopInProgress = true) := by
  cases a with
  | service a =>
    obtain ⟨moved, -, rfl⟩ := Option.map_eq_some_iff.mp h
    cases hreturned
  | checkRecording pool =>
    obtain rfl := Option.some.inj h
    rcases hrecording : s.isRecording with _ | _ <;> rw [hrecording] at hreturned <;> cases hreturned
  | loadStop =>
    obtain rfl := Option.some.inj h
    rcases hstop : s.stopInProgress with _ | _
    · exact .inl ⟨rfl, rfl, rfl⟩
    · rw [hstop] at hreturned
      cases hreturned
  | returned => cases h
  | stopping call pc =>
    obtain ⟨moved, hstep, rfl⟩ := Option.map_eq_some_iff.mp h
    have hmoves := stopMoves_of_step hstep
    obtain ⟨s', task, spawned⟩ := moved
    cases hmoves with
    | goesOn => cases hreturned
    | empties => cases hreturned
    | nothing hclear => exact .inl ⟨rfl, rfl, hclear⟩
    | refused hset => exact .inr (.inr ⟨rfl, hset⟩)
    | releases => exact .inr (.inl ⟨rfl, rfl, rfl⟩)

/-- While an exit does not look any more, a manager in the slot is about to be taken out. -/
theorem finishing_of_blind {c : Tasks.Config Service ExitTask} {t : ℕ} {m : SessionId}
    (h : Tasks.Reaches exitProgram exitWaits exitStart c) (hblind : (c.tasks t).blind = true)
    (hm : c.shared.manager = some m) : ∃ u, (c.tasks u).seen.role.finishing = true := by
  have hfree : ∀ a, exitProgram.isFree a = true → ¬a.seen.role.finishing = true := by
    intro a hfree hfinishing
    cases a with
    | service a => cases a <;> first | cases hfinishing | cases hfree
    | _ => cases hfree
  induction h generalizing t m with
  | refl => cases hblind
  | @step c c' label hreach hallow hnext ih =>
    rcases Tasks.Program.next_cases hnext with
      ⟨t', k, s', a, rfl, hslot, hbegins, rfl⟩ | ⟨t', env, child, move, rfl, hstep, hafter⟩
    · obtain ⟨hsame, hsees⟩ : s'.manager = c.shared.manager ∧ a.blind = false := by
        cases k with
        | service k =>
          obtain ⟨⟨begun, task⟩, hcall, heq⟩ := Option.map_eq_some_iff.mp hbegins
          obtain ⟨rfl, rfl⟩ := Prod.mk.inj heq
          exact ⟨congrArg Slot.manager (slot_begins hcall).1, rfl⟩
        | finishRecordingForExit pool =>
          obtain ⟨rfl, rfl⟩ := Prod.mk.inj (Option.some.inj hbegins)
          exact ⟨rfl, rfl⟩
      have hne : t ≠ t' := by
        rintro rfl
        simp [hsees] at hblind
      obtain ⟨u, hu⟩ := ih (t := t) (by simpa [hne] using hblind) (hsame ▸ hm)
      have hne' : u ≠ t' := by
        rintro rfl
        exact hfree _ hslot hu
      exact ⟨u, by simpa [hne'] using hu⟩
    · by_contra hnone
      obtain ⟨hshared, htask, hothers⟩ := Tasks.Program.afterMove_cases hafter
      obtain ⟨hbefore, -⟩ := Tasks.Program.not_of_afterMove hafter hfree (not_exists.mp hnone)
      rw [hshared] at hm
      have hmoved : ¬move.task.seen.role.finishing = true := fun hfinishing =>
        hnone ⟨t', htask ▸ hfinishing⟩
      -- no stop was finishing before the step
      have hidle : ¬∃ u, (c.tasks u).seen.role.finishing = true := by
        rintro ⟨u, hu⟩
        obtain rfl : u = t' := by
          by_contra hne
          exact hbefore u hne hu
        rcases slot_of_exitStep hstep with hslot | ⟨-, hrole, -⟩
        · rcases hslot.finishing hu with hgoes | hempty
          · exact hmoved hgoes
          · exact absurd (hempty.symm.trans hm) (by simp)
        · rw [hrole] at hu
          cases hu
      -- what is in the slot was there, or a start has stored it
      have hkept : c.shared.manager = some m ∨ (c.tasks t').startStores = true := by
        rcases slot_of_exitStep hstep with hslot | ⟨hsame, -⟩
        · rcases hslot.manager_cases hm with hin | hgoes | ⟨hrole, hends⟩
          · exact .inl hin
          · exact absurd hgoes hmoved
          · exact .inr (startStores_of_exitStep hstep hrole hends)
        · exact .inl ((congrArg Slot.manager hsame).symm.trans hm)
      rcases eq_or_ne t t' with rfl | hne
      · rw [htask] at hblind
        rcases blind_of_exitStep hstep hblind with hwas | hempty | ⟨hsame, hsilent⟩
        · rcases hkept with hin | hstores
          · exact hidle (ih hwas hin)
          · exact absurd ((ExitTask.startStores_of_blind hwas).symm.trans hstores)
              Bool.false_ne_true
        · exact absurd (hempty.symm.trans hm) (by simp)
        · rw [hsame] at hm
          rcases recording_or_finishing (exit_simulates.reaches hreach) hm with hrecords | hgoes
          · rw [Service.isRecording, hm] at hsilent
            exact absurd (hsilent.symm.trans hrecords) Bool.false_ne_true
          · exact hidle hgoes
      · have hwas : (c.tasks t).blind = true := by
          rcases hothers t hne with hsame | ⟨hspawned, -⟩
          · exact hsame ▸ hblind
          · rw [sees_of_spawned hstep hspawned] at hblind
            cases hblind
        rcases hkept with hin | hstores
        · exact hidle (ih hwas hin)
        · have hsees := hallow.2 t hne hstores
          rw [hwas] at hsees
          cases hsees

/-- There is no recording left to save. -/
structure Finished (s : Service) : Prop where
  /-- no manager is in the slot -/
  saved : s.manager = none
  /-- no stop is in progress -/
  quiet : s.stopInProgress = false

/-- `finish_recording_for_exit` has returned. -/
def hasReturned : ExitTask → Bool
  | .returned _ => true
  | _ => false

/-- **The exit waits.** In every run, with any starts, stops and fatal errors: while no stop of an
exit is refused and no start stores a manager behind an exit, an exit that returns leaves no manager
in the slot and no stop in progress. -/
theorem finished_of_reaches {c c' : Tasks.Config Service ExitTask} {t child : ℕ} {env : Env}
    (h : Tasks.Reaches exitProgram exitWaits exitStart c)
    (hallow : exitWaits.Allows c (.run t env child))
    (hnext : exitProgram.next c (.run t env child) = some c')
    (hreturned : hasReturned (c'.tasks t) = true) : Finished c'.shared := by
  obtain ⟨move, hstep, hafter⟩ := Option.bind_eq_some_iff.mp hnext
  obtain ⟨hshared, htask, -⟩ := Tasks.Program.afterMove_cases hafter
  have hflags := hold_flags (exit_simulates.reaches h)
  obtain ⟨stopped, hmoved⟩ : ∃ stopped, move.task = .returned stopped := by
    rw [htask] at hreturned
    revert hreturned
    cases move.task <;> first | exact fun _ => ⟨_, rfl⟩ | exact nofun
  -- a stop that is finishing has the flag
  have hempty : (c.tasks t).blind = true →
      (∀ u, (c.tasks u).seen.role.finishing = true → False) → c.shared.manager = none := by
    intro hblind hnone
    rcases hm : c.shared.manager with _ | m
    · rfl
    · obtain ⟨u, hu⟩ := finishing_of_blind h hblind hm
      exact (hnone u hu).elim
  rw [hshared]
  rcases returned_cases hstep hmoved with
    ⟨hblind, hsame, hclear⟩ | ⟨hblind, hends, hreleased⟩ | ⟨hwants, hset⟩
  · rw [hsame]
    refine ⟨hempty hblind fun u hu => ?_, hclear⟩
    have hset : c.shared.stopInProgress = true :=
      (hflags.own u).2 (Role.holdsStop_of_finishing hu)
    rw [hclear] at hset
    cases hset
  · rw [hreleased]
    refine ⟨hempty hblind fun u hu => ?_, rfl⟩
    have hne : t ≠ u := by
      rintro rfl
      rw [hends] at hu
      cases hu
    have hheld : (c.tasks t).seen.role.holdsStop = true := by rw [hends]; rfl
    have hother := (hflags.pair t u hne).2 hheld
    have hfinishing := Role.holdsStop_of_finishing hu
    exact absurd (hother.symm.trans hfinishing) nofun
  · rw [hallow.1 hwants] at hset
    cases hset

/-! ### An exit beside a stop -/

/-- No recording is started once the exit was requested. -/
def noStartAfterExit : Tasks.Discipline Service ExitTask Env ExitCall where
  call _ _ := True
  callBeside k b := (match k with | .service (.start _) => true | _ => false) = true →
    (match b with | .service _ => true | _ => false) = true
  step _ _ _ := True
  stepBeside _ _ _ _ := True

instance (k : ExitCall) (s : Service) : Decidable (noStartAfterExit.call k s) :=
  inferInstanceAs (Decidable True)

instance (k : ExitCall) (b : ExitTask) : Decidable (noStartAfterExit.callBeside k b) :=
  inferInstanceAs (Decidable (_ = true → _ = true))

instance (env : Env) (s : Service) (a : ExitTask) : Decidable (noStartAfterExit.step env s a) :=
  inferInstanceAs (Decidable True)

instance (env : Env) (s : Service) (a b : ExitTask) :
    Decidable (noStartAfterExit.stepBeside env s a b) :=
  inferInstanceAs (Decidable True)

instance (k : ExitCall) (s : Service) : Decidable (exitWaits.call k s) :=
  inferInstanceAs (Decidable True)

instance (k : ExitCall) (b : ExitTask) : Decidable (exitWaits.callBeside k b) :=
  inferInstanceAs (Decidable True)

instance (env : Env) (s : Service) (a : ExitTask) : Decidable (exitWaits.step env s a) :=
  inferInstanceAs (Decidable (a.wantsFlag = true → s.stopInProgress = false))

instance (env : Env) (s : Service) (a b : ExitTask) : Decidable (exitWaits.stepBeside env s a b) :=
  inferInstanceAs (Decidable (a.startStores = true → b.blind = false))

/-- Steps of a task where all goes well. -/
def exitSteps (t child n : ℕ) : List (Tasks.Label Env ExitCall) :=
  List.replicate n (.run t ⟨true, true, 0⟩ child)

/-- A recording starts: task 0, with task 1 as its worker. -/
def recordingStarts : List (Tasks.Label Env ExitCall) :=
  .call 0 (.service (.start false)) :: exitSteps 0 1 18

/-- An exit stops the recording, up to its last step: task 2. -/
def exitStops : List (Tasks.Label Env ExitCall) :=
  .call 2 (.finishRecordingForExit false) :: exitSteps 2 9 14 ++ .run 1 ⟨false, true, 0⟩ 9 ::
    exitSteps 2 9 8

/-- An exit while a stop of the user has the manager, up to its last step: tasks 3 and 2. -/
def exitBesideStop : List (Tasks.Label Env ExitCall) :=
  .call 3 (.service (.stop false)) :: exitSteps 3 9 8 ++
    .call 2 (.finishRecordingForExit false) :: exitSteps 2 9 4

/-- An exit that stops the recording. -/
theorem finished_exitStops :
    ∃ c c', exitProgram.runBelow exitWaits 10 exitStart (recordingStarts ++ exitStops) = some c ∧
      exitProgram.next c (.run 2 ⟨true, true, 0⟩ 9) = some c' ∧
      hasReturned (c'.tasks 2) = true ∧ Finished c'.shared := by
  obtain ⟨c, hrun, hc⟩ := Option.map_eq_some_iff.mp
    (show (exitProgram.runBelow exitWaits 10 exitStart (recordingStarts ++ exitStops)).map
      (fun c => (exitWaits.allowsBelow 10 c (.run 2 ⟨true, true, 0⟩ 9),
        (exitProgram.next c (.run 2 ⟨true, true, 0⟩ 9)).map fun c' => hasReturned (c'.tasks 2))) =
      some (true, some true) from rfl)
  obtain ⟨hallowed, hnext⟩ := Prod.mk.inj hc
  obtain ⟨c', hnext, hreturned⟩ := Option.map_eq_some_iff.mp hnext
  have hidle : ∀ u, 10 ≤ u → c.tasks u = .service .free := fun u hu =>
    Tasks.Program.tasks_of_runBelow hu hrun
  have hreach : Tasks.Reaches exitProgram exitWaits exitStart c :=
    .of_runBelow (fun _ => trivial) (fun _ _ _ _ => rfl) (fun _ _ => rfl) .refl hrun
  have hallow : exitWaits.Allows c (.run 2 ⟨true, true, 0⟩ 9) :=
    Tasks.Discipline.allows_of_allowsBelow (fun _ => trivial) (fun _ _ _ _ => rfl) hidle hallowed
  exact ⟨c, c', hrun, hnext, hreturned, finished_of_reaches hreach hallow hnext hreturned⟩

/-- An exit returns while the stop of the user is in progress. -/
theorem not_finished_exitBesideStop :
    ¬∀ c c' t env child, Tasks.Reaches exitProgram noStartAfterExit exitStart c →
      exitProgram.next c (.run t env child) = some c' → hasReturned (c'.tasks t) = true →
      Finished c'.shared := by
  intro h
  obtain ⟨c, hrun, hc⟩ := Option.map_eq_some_iff.mp
    (show (exitProgram.runBelow noStartAfterExit 10 exitStart
      (recordingStarts ++ exitBesideStop)).map (fun c =>
        (exitProgram.next c (.run 2 ⟨true, true, 0⟩ 9)).map fun c' =>
          (hasReturned (c'.tasks 2), c'.shared.stopInProgress)) = some (some (true, true)) from rfl)
  obtain ⟨c', hnext, hc'⟩ := Option.map_eq_some_iff.mp hc
  obtain ⟨hreturned, hset⟩ := Prod.mk.inj hc'
  have hreach : Tasks.Reaches exitProgram noStartAfterExit exitStart c :=
    .of_runBelow (fun _ _ => rfl) (fun _ _ _ => trivial) (fun _ _ => rfl) .refl hrun
  have hclear := (h c c' 2 _ 9 hreach hnext hreturned).quiet
  rw [hset] at hclear
  cases hclear

end RecordingService

end MeetilyLocal
