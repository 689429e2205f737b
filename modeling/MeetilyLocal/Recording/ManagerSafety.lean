import MeetilyLocal.Recording.ManagerOwnership

/-!
# No recording is replaced unsaved

`begin_start_phase` looks for a stop and then for a recording, in two steps; a stop that acquires
its flag and takes the manager out between them is seen by neither. Where no stop acquires its flag
while a start stands between the two, a start never gets past `begin_start_phase` during a stop, and
a manager is only ever stored in an empty slot (`RecordingService.keepsManager_of_reaches`).
-/

namespace MeetilyLocal

/-! ## What is safe -/

/-- Without a stop, the manager in the slot records. -/
def SlotSafe (σ : Slot) : Prop :=
  σ.stopInProgress = false → ∀ m, σ.manager = some m → σ.recording m = true

/-- A task and the slot. -/
structure RoleSafe (σ : Slot) (r : Role) : Prop where
  /-- nothing is in the slot that something will be put into -/
  empty : r.willStore = true ∨ r.carries = true → σ.manager = none
  /-- between its two checks there is no stop -/
  checks : r = .startChecks → σ.stopInProgress = false
  /-- a manager that is about to be stored records -/
  records : ∀ m, r = .startRecords m → σ.recording m = true
  /-- beside a stop that does not drain, the manager in the slot records -/
  settled : r.holdsStop = true → r ≠ .stopDrains → ∀ m, σ.manager = some m → σ.recording m = true

/-- Only one of two tasks will put something into the slot. -/
structure RolesApart (r q : Role) : Prop where
  /-- in one order -/
  stores : r.willStore = true → q.carries = false
  /-- in the other -/
  carries : q.willStore = true → r.carries = false

/-- A part in which nothing is at stake. -/
def Role.idle : Role → Bool
  | bystander | startTries | startLooks | startFails _ | startEnds | stopLooks | stopTries => true
  | _ => false

theorem RoleSafe.of_idle {r : Role} (σ : Slot) (h : r.idle = true) : RoleSafe σ r := by
  cases r <;> first | (cases h; done) | exact ⟨nofun, nofun, nofun, nofun⟩

theorem RolesApart.of_idle {r : Role} (q : Role) (h : r.idle = true) : RolesApart r q := by
  cases r <;> first | (cases h; done) | exact ⟨nofun, fun _ => rfl⟩

theorem RolesApart.symm {r q : Role} (h : RolesApart r q) : RolesApart q r :=
  ⟨h.carries, h.stores⟩

namespace RoleSafe

variable {σ : Slot} {q : Role} {m : SessionId}

/-- A session that it does not have in its hands, and that is not in the slot, may change. -/
theorem setRecording (h : RoleSafe σ q) (hslot : σ.manager ≠ some m) (howns : q.owns ≠ some m)
    (recording : Bool) : RoleSafe (σ.setRecording m recording) q where
  empty := h.empty
  checks := h.checks
  records other hother := by
    have hne : other ≠ m := by
      rintro rfl
      exact howns (hother ▸ rfl)
    exact (Slot.recording_setRecording_of_ne hne).trans (h.records other hother)
  settled hstop hdrains other hother := by
    have hne : other ≠ m := by
      rintro rfl
      exact hslot hother
    exact (Slot.recording_setRecording_of_ne hne).trans (h.settled hstop hdrains other hother)

/-- The slot may be emptied. -/
theorem takeOut (h : RoleSafe σ q) : RoleSafe { σ with manager := none } q where
  empty _ := rfl
  checks := h.checks
  records := h.records
  settled _ _ := nofun

/-- A manager may be stored beside a task that will not store one. -/
theorem store (h : RoleSafe σ q) (hempty : σ.manager = none) (hstores : q.willStore = false)
    (hcarries : q.carries = false) (hrecords : q.holdsStop = true → σ.recording m = true) :
    RoleSafe (σ.store m) q := by
  rw [Slot.store_of_none hempty]
  refine ⟨?_, h.checks, h.records, ?_⟩
  · rintro (hwill | hwill)
    · exact absurd (hstores.symm.trans hwill) nofun
    · exact absurd (hcarries.symm.trans hwill) nofun
  · rintro hstop - _ ⟨⟩
    exact hrecords hstop

end RoleSafe

/-- A part that stores no more. -/
theorem RolesApart.of_le {r r' q : Role} (h : RolesApart r q)
    (hstores : r'.willStore = true → r.willStore = true)
    (hcarries : r.carries = false → r'.carries = false) : RolesApart r' q :=
  ⟨fun hwill => h.stores (hstores hwill), fun hwill => hcarries (h.carries hwill)⟩

namespace SlotStep

variable {σ σ' : Slot} {r r' q : Role}

/-- A step keeps what is safe. -/
theorem safe (h : SlotStep σ r σ' r') (hs : SlotSafe σ) (hr : RoleSafe σ r) (howned : r.Owned σ)
    (hstop : r.holdsStop = true → σ.stopInProgress = true) : SlotSafe σ' ∧ RoleSafe σ' r' := by
  cases h with
  | stays => exact ⟨hs, hr⟩
  | startRefused => exact ⟨hs, .of_idle _ rfl⟩
  | startAcquires => exact ⟨hs, .of_idle _ rfl⟩
  | seesStop => exact ⟨hs, .of_idle _ rfl⟩
  | seesNoStop hclear => exact ⟨hs, nofun, fun _ => hclear, nofun, nofun⟩
  | seesRecording => exact ⟨hs, .of_idle _ rfl⟩
  | seesNoRecording hidle =>
    -- what is in the slot would record
    refine ⟨hs, fun _ => ?_, nofun, nofun, nofun⟩
    rcases hmanager : σ.manager with _ | m
    · rfl
    · have hrecords := hs (hr.checks rfl) m hmanager
      rw [hidle m hmanager] at hrecords
      cases hrecords
  | givesUp => exact ⟨hs, .of_idle _ rfl⟩
  | creates =>
    have hempty : σ.manager = none := hr.empty (.inl rfl)
    exact ⟨fun _ m hm => absurd (hempty.symm.trans hm) nofun, fun _ => hempty, nofun, nofun, nofun⟩
  | @begins m =>
    have hempty : σ.manager = none := hr.empty (.inl rfl)
    refine ⟨fun _ m hm => absurd (hempty.symm.trans hm) nofun, fun _ => hempty, nofun, ?_, nofun⟩
    rintro _ ⟨⟩
    exact Slot.recording_setRecording_self
  | aborts => exact ⟨hs, .of_idle _ rfl⟩
  | @stores m =>
    have hempty : σ.manager = none := hr.empty (.inl rfl)
    rw [Slot.store_of_none hempty]
    refine ⟨?_, .of_idle _ rfl⟩
    rintro _ _ ⟨⟩
    exact hr.records m rfl
  | @undoes m =>
    refine ⟨fun hclear other hother => ?_, .of_idle _ rfl⟩
    have hne : other ≠ m := fun heq => (howned m rfl).2 (heq ▸ hother)
    exact (Slot.recording_setRecording_of_ne hne).trans (hs hclear other hother)
  | @undone m =>
    refine ⟨fun hclear other hother => ?_, .of_idle _ rfl⟩
    have hne : other ≠ m := fun heq => (howned m rfl).2 (heq ▸ hother)
    exact (Slot.recording_setRecording_of_ne hne).trans (hs hclear other hother)
  | nothingUndone => exact ⟨hs, .of_idle _ rfl⟩
  | startReleases => exact ⟨hs, .of_idle _ rfl⟩
  | finds => exact ⟨hs, .of_idle _ rfl⟩
  | findsNothing => exact ⟨hs, .of_idle _ rfl⟩
  | stopRefused => exact ⟨hs, .of_idle _ rfl⟩
  | stopAcquires hclear => exact ⟨nofun, nofun, nofun, nofun, fun _ _ => hs hclear⟩
  | takes => exact ⟨fun _ => nofun, fun _ => rfl, nofun, nofun, nofun⟩
  | takesNothing => exact ⟨fun _ => nofun, nofun, nofun, nofun, nofun⟩
  | @silences m =>
    have hempty : σ.manager = none := hr.empty (.inr rfl)
    exact ⟨fun _ m hm => absurd (hempty.symm.trans hm) nofun, fun _ => hempty, nofun, nofun,
      fun _ _ m hm => absurd (hempty.symm.trans hm) nofun⟩
  | @putsBack m =>
    have hset : σ.stopInProgress = true := hstop rfl
    rw [Slot.store_of_none (hr.empty (.inr rfl))]
    refine ⟨fun hclear => ?_, nofun, nofun, nofun, fun _ hne => absurd rfl hne⟩
    exact absurd (hset.symm.trans hclear) nofun
  | takesAll => exact ⟨fun _ => nofun, nofun, nofun, nofun, nofun⟩
  | @saves m =>
    have hset : σ.stopInProgress = true := hstop rfl
    refine ⟨fun hclear => absurd (hset.symm.trans hclear) nofun, nofun, nofun, nofun,
      fun _ _ other hother => ?_⟩
    have hne : other ≠ m := fun heq => (howned m rfl).2 (heq ▸ hother)
    exact (Slot.recording_setRecording_of_ne hne).trans (hr.settled rfl nofun other hother)
  | savesNothing => exact ⟨hs, nofun, nofun, nofun, fun _ _ => hr.settled rfl nofun⟩
  | stopReleases => exact ⟨fun _ => hr.settled rfl nofun, .of_idle _ rfl⟩

/-- A step keeps what is safe for another task, if it does not acquire `STOP_IN_PROGRESS` between
the two checks of a start. -/
theorem beside (h : SlotStep σ r σ' r') (hr : RoleSafe σ r) (hq : RoleSafe σ q)
    (hpair : RolesApart r q) (howned : r.Owned σ) (hqowned : q.Owned σ) (hapart : r.Apart q)
    (hstart : r.holdsStart = true → q.holdsStart = false)
    (hstop : r.holdsStop = true → q.holdsStop = false)
    (hset : q.holdsStop = true → σ.stopInProgress = true)
    (hbetween : r = .stopTries → σ.stopInProgress = false → q ≠ .startChecks) :
    RoleSafe σ' q ∧ RolesApart r' q := by
  -- a manager that the task has is no concern of the other one
  have hsilence : ∀ m recording, r.owns = some m → RoleSafe (σ.setRecording m recording) q :=
    fun m recording hm => hq.setRecording (howned m hm).2 (hapart m hm) recording
  cases h with
  | stays => exact ⟨hq, hpair⟩
  | startRefused => exact ⟨hq, .of_idle _ rfl⟩
  | startAcquires => exact ⟨⟨hq.empty, hq.checks, hq.records, hq.settled⟩, .of_idle _ rfl⟩
  | seesStop => exact ⟨hq, .of_idle _ rfl⟩
  | seesNoStop => exact ⟨hq, hpair.of_le nofun id⟩
  | seesRecording => exact ⟨hq, .of_idle _ rfl⟩
  | seesNoRecording =>
    refine ⟨hq, fun _ => ?_, fun _ => rfl⟩
    -- a stop that carries a manager has the flag, which the start saw clear
    rcases hcarries : q.carries with _ | _
    · rfl
    · have hheld : q.holdsStop = true := by cases q <;> first | rfl | cases hcarries
      have hclear : σ.stopInProgress = false := hr.checks rfl
      rw [hset hheld] at hclear
      cases hclear
  | givesUp => exact ⟨hq, .of_idle _ rfl⟩
  | creates =>
    have hempty : σ.manager = none := hr.empty (.inl rfl)
    have hnew : q.owns ≠ some σ.nextSession := fun howns =>
      Nat.lt_irrefl _ (hqowned _ howns).1
    have hslot : σ.manager ≠ some σ.nextSession := hempty ▸ nofun
    have hq' := hq.setRecording hslot hnew false
    exact ⟨⟨hq'.empty, hq'.checks, hq'.records, hq'.settled⟩, hpair.stores, fun _ => rfl⟩
  | @begins m => exact ⟨hsilence m true rfl, hpair.of_le id id⟩
  | aborts => exact ⟨hq, .of_idle _ rfl⟩
  | @stores m =>
    refine ⟨hq.store (hr.empty (.inl rfl)) ?_ (hpair.stores rfl) fun _ => hr.records m rfl,
      .of_idle _ rfl⟩
    -- there is only one start
    have hother := hstart rfl
    cases q <;> first | rfl | cases hother
  | @undoes m => exact ⟨hsilence m false rfl, hpair⟩
  | @undone m => exact ⟨hsilence m false rfl, .of_idle _ rfl⟩
  | nothingUndone => exact ⟨hq, .of_idle _ rfl⟩
  | startReleases => exact ⟨⟨hq.empty, hq.checks, hq.records, hq.settled⟩, .of_idle _ rfl⟩
  | finds => exact ⟨hq, .of_idle _ rfl⟩
  | findsNothing => exact ⟨hq, .of_idle _ rfl⟩
  | stopRefused => exact ⟨hq, .of_idle _ rfl⟩
  | stopAcquires hclear =>
    exact ⟨⟨hq.empty, fun hchecks => absurd hchecks (hbetween rfl hclear), hq.records,
      hq.settled⟩, nofun, fun _ => rfl⟩
  | @takes m hm =>
    refine ⟨hq.takeOut, nofun, fun hwill => ?_⟩
    rw [hq.empty (.inl hwill)] at hm
    cases hm
  | takesNothing => exact ⟨hq.takeOut, nofun, fun _ => rfl⟩
  | @silences m => exact ⟨hsilence m false rfl, hpair⟩
  | @putsBack m =>
    refine ⟨hq.store (hr.empty (.inr rfl)) ?_ ?_ fun hheld => ?_, hpair.of_le nofun fun _ => rfl⟩
    · rcases hwill : q.willStore with _ | _
      · rfl
      · exact absurd (hpair.carries hwill) nofun
    · -- there is only one stop
      have hother := hstop rfl
      cases q <;> first | rfl | cases hother
    · exact absurd ((hstop rfl).symm.trans hheld) nofun
  | takesAll => exact ⟨hq.takeOut, nofun, fun _ => rfl⟩
  | @saves m => exact ⟨hsilence m false rfl, hpair.of_le nofun fun _ => rfl⟩
  | savesNothing => exact ⟨hq, hpair.of_le nofun fun _ => rfl⟩
  | stopReleases => exact ⟨⟨hq.empty, fun _ => rfl, hq.records, hq.settled⟩, .of_idle _ rfl⟩

/-- A step keeps the manager that is in the slot, or takes it out. -/
theorem keepsManager (h : SlotStep σ r σ' r') (hr : RoleSafe σ r) {m : SessionId}
    (hm : σ.manager = some m) : σ'.manager = some m ∨ σ'.manager = none := by
  cases h with
  | stores =>
    rw [hr.empty (.inl rfl)] at hm
    cases hm
  | putsBack =>
    rw [hr.empty (.inr rfl)] at hm
    cases hm
  | takes => exact .inr rfl
  | takesNothing => exact .inr rfl
  | takesAll => exact .inr rfl
  | _ => exact .inl hm

end SlotStep

namespace RecordingService

/-! ## Runs of the service -/

/-- No stop acquires its flag while a start stands between its two checks. -/
def noStopBetweenChecks : Tasks.Discipline Service ServiceTask Env ServiceCall where
  call _ _ := True
  callBeside _ _ := True
  step _ _ _ := True
  stepBeside _ s a b :=
    a.role = .stopTries → s.stopInProgress = false → b.role ≠ .startChecks

/-- The slot and the tasks are safe. -/
def managed : Tasks.Assertions Service ServiceTask where
  shared s := SlotSafe s.slot
  own s a := RoleSafe s.slot a.role
  pair a b := RolesApart a.role b.role

theorem stable_managed {d : Tasks.Discipline Service ServiceTask Env ServiceCall}
    (hbetween : ∀ {env s a b}, d.stepBeside env s a b → noStopBetweenChecks.stepBeside env s a b) :
    Tasks.Assertions.Stable (flags.and owned) managed program d where
  symm h := h.symm
  call {k s s' a} _ hs hbegins := by
    obtain ⟨hslot, hrole⟩ := slot_begins hbegins
    refine ⟨show SlotSafe s'.slot from hslot.symm ▸ hs.2, .of_idle _ ?_⟩
    rcases hrole with hrole | hrole | hrole <;> rw [hrole] <;> rfl
  callBeside {k s s' a b} _ _ _ hb hbegins := by
    obtain ⟨hslot, hrole⟩ := slot_begins hbegins
    refine ⟨show RoleSafe s'.slot b.role from hslot.symm ▸ hb.2, .of_idle _ ?_⟩
    rcases hrole with hrole | hrole | hrole <;> rw [hrole] <;> rfl
  step {env s a move} htaken := by
    obtain ⟨-, ⟨-, hs⟩, ⟨⟨⟨-, hstop⟩, howned⟩, hr⟩, heq⟩ := htaken
    exact (slotStep_of_step heq).safe hs hr howned hstop
  beside {env s a b move} hbeside := by
    obtain ⟨⟨-, -, ⟨⟨-, howned⟩, hr⟩, heq⟩, hallowed, ⟨⟨⟨-, hset⟩, hqowned⟩, hq⟩,
      ⟨⟨hstart, hstop⟩, hapart⟩, hpair⟩ := hbeside
    exact (slotStep_of_step heq).beside hr hq hpair howned hqowned hapart hstart hstop hset
      (hbetween hallowed)
  spawn {env s a child move} htaken hspawned := by
    have hidle : child.role.idle = true := by
      rcases role_spawned htaken.eq hspawned with hrole | hrole <;> rw [hrole] <;> rfl
    exact ⟨.of_idle _ hidle, (RolesApart.of_idle _ hidle).symm⟩
  spawnBeside {env s a b child move} hbeside hspawned := by
    refine .of_idle _ ?_
    rcases role_spawned hbeside.eq hspawned with hrole | hrole <;> rw [hrole] <;> rfl

theorem hold_managed {d : Tasks.Discipline Service ServiceTask Env ServiceCall}
    (hbetween : ∀ {env s a b}, d.stepBeside env s a b → noStopBetweenChecks.stepBeside env s a b)
    {c : Tasks.Config Service ServiceTask} (h : Tasks.Reaches program d start c) :
    managed.Hold c := by
  refine (stable_managed hbetween).of_reaches
    (fun _ hreach => (hold_flags hreach).and (hold_owned hreach)) ?_ h
  exact ⟨fun _ => nofun, fun _ => .of_idle _ rfl, fun _ _ _ => .of_idle _ rfl⟩

/-! ## What is kept -/

/-- `begin_start_phase` returns a guard in a step from one task to the other. -/
def passesStartPhase : ServiceTask → ServiceTask → Bool
  | .start _ .checkRecording, .start _ .emitStarting => true
  | _, _ => false

/-- A stop that has acquired `STOP_IN_PROGRESS` and has not finished. -/
def holdsStop : ServiceTask → Bool
  | .stop _ .checkManager | .stop _ .loadStop | .stop _ .tryStop => false
  | .stop _ _ => true
  | _ => false

/-- No recording is replaced unsaved in a step from one configuration to the next. -/
structure KeepsManager (c : Tasks.Config Service ServiceTask) (label : Tasks.Label Env ServiceCall)
    (c' : Tasks.Config Service ServiceTask) : Prop where
  /-- the manager in the slot stays, or is taken out -/
  kept : ∀ m, c.shared.manager = some m → c'.shared.manager = some m ∨ c'.shared.manager = none
  /-- what is stored is stored in an empty slot -/
  stores : ∀ t env child, label = .run t env child → storesManager (c.tasks t) = true →
    c.shared.manager = none
  /-- a start that gets past `begin_start_phase` does so beside no stop -/
  passes : ∀ t env child, label = .run t env child →
    passesStartPhase (c.tasks t) (c'.tasks t) = true → ∀ u, holdsStop (c.tasks u) = false

theorem role_of_storesManager {a : ServiceTask} (h : storesManager a = true) :
    a.role.willStore = true ∨ a.role.carries = true := by
  cases a with
  | start pool pc => cases pc <;> first | exact .inl rfl | cases h
  | stop call pc => cases pc <;> first | exact .inr rfl | cases h
  | _ => cases h

theorem role_of_passesStartPhase {a a' : ServiceTask} (h : passesStartPhase a a' = true) :
    a.role = .startChecks := by
  cases a with
  | start pool pc => cases pc <;> first | rfl | cases h
  | _ => cases h

theorem holdsStop_role (a : ServiceTask) : a.role.holdsStop = holdsStop a := by
  cases a with
  | start pool pc => cases pc <;> rfl
  | stop call pc => cases pc <;> rfl
  | _ => rfl

/-- **No recording is replaced unsaved.** While no stop acquires its flag between the two checks of
a start, nothing is stored over a manager, and no start gets past `begin_start_phase` beside a
stop. -/
theorem keepsManager_of_reaches {c c' : Tasks.Config Service ServiceTask}
    {label : Tasks.Label Env ServiceCall} (h : Tasks.Reaches program noStopBetweenChecks start c)
    (hnext : program.next c label = some c') : KeepsManager c label c' := by
  have hflags := hold_flags h
  have hmanaged := hold_managed id h
  refine ⟨fun m hm => ?_, fun t env child _ hstores => ?_, fun t env child _ hpasses u => ?_⟩
  · rcases Tasks.Program.next_cases hnext with
      ⟨t, call, s', task, -, -, hbegins, rfl⟩ | ⟨t, env, child, move, -, hstep, hafter⟩
    · obtain ⟨hslot, -⟩ := slot_begins hbegins
      have hmanager : s'.manager = c.shared.manager := congrArg Slot.manager hslot
      exact .inl (hmanager.trans hm)
    · obtain ⟨hshared, -, -⟩ := Tasks.Program.afterMove_cases hafter
      rw [hshared]
      exact (slotStep_of_step hstep).keepsManager (hmanaged.own t) hm
  · exact (hmanaged.own t).empty (role_of_storesManager hstores)
  · -- the start that looks for a recording saw no stop
    have hclear : c.shared.stopInProgress = false :=
      (hmanaged.own t).checks (role_of_passesStartPhase hpasses)
    rcases hheld : holdsStop (c.tasks u) with _ | _
    · rfl
    · have hset : c.shared.stopInProgress = true :=
        (hflags.own u).2 ((holdsStop_role _).trans hheld)
      rw [hclear] at hset
      cases hset

/-! ### Two sessions -/

/-- Steps of a task where all goes well. -/
def steps (t child n : ℕ) : List (Tasks.Label Env ServiceCall) :=
  List.replicate n (.run t ⟨true, true, 0⟩ child)

/-- A start to its end: task 0, with task 1 as its worker. -/
def firstStart : List (Tasks.Label Env ServiceCall) := .call 0 (.start false) :: steps 0 1 18

/-- A stop of it, up to where the manager is put back: task 2. -/
def firstStop : List (Tasks.Label Env ServiceCall) := .call 2 (.stop false) :: steps 2 9 10

/-- A second start that looks for a stop before the first recording is stopped, and for a recording
after its manager was taken out: task 3. -/
def startBetween : List (Tasks.Label Env ServiceCall) :=
  .call 3 (.start false) :: steps 3 9 2 ++ .call 2 (.stop false) :: steps 2 9 6

/-- The rest of both, up to where the stop puts its manager back. -/
def overwrites : List (Tasks.Label Env ServiceCall) := steps 3 9 9 ++ steps 2 9 4

instance (k : ServiceCall) (s : Service) : Decidable (noStopBetweenChecks.call k s) :=
  inferInstanceAs (Decidable True)

instance (k : ServiceCall) (b : ServiceTask) : Decidable (noStopBetweenChecks.callBeside k b) :=
  inferInstanceAs (Decidable True)

instance (env : Env) (s : Service) (a : ServiceTask) :
    Decidable (noStopBetweenChecks.step env s a) :=
  inferInstanceAs (Decidable True)

instance (env : Env) (s : Service) (a b : ServiceTask) :
    Decidable (noStopBetweenChecks.stepBeside env s a b) :=
  inferInstanceAs (Decidable (a.role = .stopTries → s.stopInProgress = false →
    b.role ≠ .startChecks))

/-- A stop that puts its manager back into the empty slot. -/
theorem keepsManager_firstStop :
    ∃ c c', program.runBelow noStopBetweenChecks 10 start (firstStart ++ firstStop) = some c ∧
      program.next c (.run 2 ⟨true, true, 0⟩ 9) = some c' ∧ c.shared.manager = none ∧
      c'.shared.manager = some 0 ∧ KeepsManager c (.run 2 ⟨true, true, 0⟩ 9) c' := by
  obtain ⟨c, hrun, hc⟩ := Option.map_eq_some_iff.mp
    (show (program.runBelow noStopBetweenChecks 10 start (firstStart ++ firstStop)).map (fun c =>
      (c.shared.manager, (program.next c (.run 2 ⟨true, true, 0⟩ 9)).map fun c' =>
        c'.shared.manager)) = some (none, some (some 0)) from rfl)
  obtain ⟨hmanager, hnext⟩ := Prod.mk.inj hc
  obtain ⟨c', hnext, hmanager'⟩ := Option.map_eq_some_iff.mp hnext
  have hreach : Tasks.Reaches program noStopBetweenChecks start c :=
    .of_runBelow (fun _ => trivial) (fun _ _ _ _ _ => by decide) (fun _ _ => rfl) .refl hrun
  exact ⟨c, c', hrun, hnext, hmanager, hmanager', keepsManager_of_reaches hreach hnext⟩

/-- In general a manager is overwritten, and a start gets past `begin_start_phase` beside a stop. -/
theorem not_keepsManager_startBetween :
    (¬∀ c c' label, Tasks.Reaches program .free start c → program.next c label = some c' →
      ∀ m, c.shared.manager = some m →
        c'.shared.manager = some m ∨ c'.shared.manager = none) ∧
    ¬∀ c c' t env child, Tasks.Reaches program .free start c →
      program.next c (.run t env child) = some c' →
      passesStartPhase (c.tasks t) (c'.tasks t) = true → ∀ u, holdsStop (c.tasks u) = false := by
  constructor
  · intro h
    obtain ⟨c, hrun, hc⟩ := Option.map_eq_some_iff.mp
      (show (program.runAll start (firstStart ++ startBetween ++ overwrites)).map (fun c =>
        (c.shared.manager, (program.next c (.run 2 ⟨true, true, 0⟩ 9)).map fun c' =>
          c'.shared.manager)) = some (some 1, some (some 0)) from rfl)
    obtain ⟨hmanager, hnext⟩ := Prod.mk.inj hc
    obtain ⟨c', hnext, hmanager'⟩ := Option.map_eq_some_iff.mp hnext
    have hkept := h c c' _ (.of_runAll .refl hrun) hnext 1 hmanager
    rw [hmanager'] at hkept
    simp at hkept
  · intro h
    obtain ⟨c, hrun, hc⟩ := Option.map_eq_some_iff.mp
      (show (program.runAll start (firstStart ++ startBetween)).map (fun c =>
        (holdsStop (c.tasks 2), (program.next c (.run 3 ⟨true, true, 0⟩ 9)).map fun c' =>
          passesStartPhase (c.tasks 3) (c'.tasks 3))) = some (true, some true) from rfl)
    obtain ⟨hheld, hnext⟩ := Prod.mk.inj hc
    obtain ⟨c', hnext, hpasses⟩ := Option.map_eq_some_iff.mp hnext
    have hclear := h c c' 3 _ 9 (.of_runAll .refl hrun) hnext hpasses 2
    rw [hheld] at hclear
    cases hclear

end RecordingService

end MeetilyLocal
