import MeetilyLocal.Library.Guard
import MeetilyLocal.Recording.ManagerSlot

/-!
# Who has which manager

What holds of the slot in every run, however starts and stops are interleaved: the two flags are
locks (`RecordingService.hold_flags`), every manager is in the slot or in the hands of one task and
never in two places (`RecordingService.hold_owned`), and a session that records has its manager in
one of them (`RecordingService.exists_owner`).
-/

namespace MeetilyLocal

/-- The manager in the slot was created. -/
def Slot.Known (σ : Slot) : Prop := ∀ m, σ.manager = some m → m < σ.nextSession

/-- What a task has in its hands was created, and is not in the slot. -/
def Role.Owned (σ : Slot) (r : Role) : Prop :=
  ∀ m, r.owns = some m → m < σ.nextSession ∧ σ.manager ≠ some m

/-- Two tasks have different managers. -/
def Role.Apart (r q : Role) : Prop := ∀ m, r.owns = some m → q.owns ≠ some m

theorem Role.Owned.of_none {r : Role} (σ : Slot) (h : r.owns = none) : r.Owned σ := by
  intro m hm
  rw [h] at hm
  cases hm

theorem Role.Apart.of_none {r : Role} (q : Role) (h : r.owns = none) : r.Apart q := by
  intro m hm
  rw [h] at hm
  cases hm

theorem Role.Apart.symm {r q : Role} (h : r.Apart q) : q.Apart r := fun m hq hr => h m hr hq

/-- A part that is no more than a part before it. -/
theorem Role.Apart.of_le {r r' q : Role} (h : r.Apart q)
    (howns : ∀ m, r'.owns = some m → r.owns = some m) : r'.Apart q := fun m hm => h m (howns m hm)

namespace Slot

variable {σ : Slot} {m other : SessionId} {recording : Bool}

@[simp] theorem manager_setRecording : (σ.setRecording m recording).manager = σ.manager := rfl

@[simp] theorem recording_setRecording_self :
    (σ.setRecording m recording).recording m = recording := Function.update_self _ _ _

theorem recording_setRecording_of_ne (h : other ≠ m) :
    (σ.setRecording m recording).recording other = σ.recording other :=
  Function.update_of_ne h _ _

@[simp] theorem manager_store : (σ.store m).manager = some m := by
  rw [store]
  split <;> rfl

@[simp] theorem nextSession_store : (σ.store m).nextSession = σ.nextSession := by
  rw [store]
  split <;> rfl

@[simp] theorem startInProgress_store : (σ.store m).startInProgress = σ.startInProgress := by
  rw [store]
  split <;> rfl

@[simp] theorem stopInProgress_store : (σ.store m).stopInProgress = σ.stopInProgress := by
  rw [store]
  split <;> rfl

theorem store_of_none (h : σ.manager = none) : σ.store m = { σ with manager := some m } := by
  rw [store, h]

/-- What records beside a session that was silenced is another one. -/
theorem recording_of_silenced (h : (σ.setRecording m false).recording other = true) :
    σ.recording other = true ∧ other ≠ m := by
  rcases eq_or_ne other m with rfl | hne
  · rw [recording_setRecording_self] at h
    cases h
  · exact ⟨(recording_setRecording_of_ne hne).symm.trans h, hne⟩

/-- What records beside a manager that was stored was not in the slot before. -/
theorem recording_of_store (h : (σ.store m).recording other = true) :
    σ.recording other = true ∧ σ.manager ≠ some other := by
  rw [store] at h
  rcases hold : σ.manager with _ | old
  · rw [hold] at h
    exact ⟨h, (Option.some_ne_none other).symm⟩
  · rw [hold] at h
    obtain ⟨hrecords, hne⟩ := recording_of_silenced h
    exact ⟨hrecords, fun heq => hne (Option.some.inj heq).symm⟩

end Slot

namespace SlotStep

variable {σ σ' : Slot} {r r' q : Role} {m : SessionId}

/-- A step leaves `START_IN_PROGRESS`, acquires it or clears it. -/
theorem startFlag (h : SlotStep σ r σ' r') :
    (σ'.startInProgress = σ.startInProgress ∧ r'.holdsStart = r.holdsStart) ∨
    (σ.startInProgress = false ∧ r.holdsStart = false ∧ σ'.startInProgress = true ∧
      r'.holdsStart = true) ∨
    (r.holdsStart = true ∧ σ'.startInProgress = false ∧ r'.holdsStart = false) := by
  cases h <;> simp_all [Role.holdsStart, Slot.setRecording]

/-- And so for `STOP_IN_PROGRESS`. -/
theorem stopFlag (h : SlotStep σ r σ' r') :
    (σ'.stopInProgress = σ.stopInProgress ∧ r'.holdsStop = r.holdsStop) ∨
    (σ.stopInProgress = false ∧ r.holdsStop = false ∧ σ'.stopInProgress = true ∧
      r'.holdsStop = true) ∨
    (r.holdsStop = true ∧ σ'.stopInProgress = false ∧ r'.holdsStop = false) := by
  cases h <;> simp_all [Role.holdsStop, Slot.setRecording]

/-- A step keeps the manager in the slot, or takes it out, or stores one that its task had. -/
theorem manager (h : SlotStep σ r σ' r') :
    (σ'.manager = σ.manager ∧ (r'.owns = r.owns ∨ r'.owns = none ∨
      (r.owns = none ∧ r'.owns = some σ.nextSession ∧ σ'.nextSession = σ.nextSession + 1))) ∨
    (σ'.manager = none ∧ r.owns = none ∧ (r'.owns = none ∨ r'.owns = σ.manager)) ∨
    (∃ m, r.owns = some m ∧ σ'.manager = some m ∧ r'.owns = none) := by
  cases h with
  | creates => exact .inl ⟨rfl, .inr (.inr ⟨rfl, rfl, rfl⟩)⟩
  | stores => exact .inr (.inr ⟨_, rfl, Slot.manager_store, rfl⟩)
  | takes hm => exact .inr (.inl ⟨rfl, rfl, .inr hm.symm⟩)
  | takesNothing => exact .inr (.inl ⟨rfl, rfl, .inl rfl⟩)
  | putsBack => exact .inr (.inr ⟨_, rfl, Slot.manager_store, rfl⟩)
  | takesAll => exact .inr (.inl ⟨rfl, rfl, .inr rfl⟩)
  | undone => exact .inl ⟨rfl, .inr (.inl rfl)⟩
  | saves => exact .inl ⟨rfl, .inr (.inl rfl)⟩
  | _ => exact .inl ⟨rfl, .inl rfl⟩

theorem nextSession (h : SlotStep σ r σ' r') : σ.nextSession ≤ σ'.nextSession := by
  cases h <;> simp [Slot.setRecording]

/-- What was created stays so, and is in one place. -/
theorem owned (h : SlotStep σ r σ' r') (hknown : σ.Known) (hr : r.Owned σ) :
    σ'.Known ∧ r'.Owned σ' := by
  have hle := h.nextSession
  rcases h.manager with ⟨hslot, howns⟩ | ⟨hslot, -, howns⟩ | ⟨m, hm, hslot, hnone⟩
  · refine ⟨fun other hother => Nat.lt_of_lt_of_le (hknown other (hslot ▸ hother)) hle, ?_⟩
    rcases howns with hsame | hnone | ⟨-, hnew, hnext⟩
    · intro other hother
      obtain ⟨hlt, hne⟩ := hr other (hsame ▸ hother)
      exact ⟨Nat.lt_of_lt_of_le hlt hle, hslot ▸ hne⟩
    · intro other hother
      rw [hnone] at hother
      cases hother
    · intro other hother
      rw [hnew, Option.some.injEq] at hother
      subst hother
      refine ⟨hnext ▸ Nat.lt_succ_self _, fun hin => ?_⟩
      exact Nat.lt_irrefl _ (hknown _ (hslot ▸ hin))
  · refine ⟨fun other hother => absurd (hslot.symm.trans hother) nofun, fun other hother => ?_⟩
    refine ⟨?_, fun hin => absurd (hslot.symm.trans hin) nofun⟩
    rcases howns with hnone | htaken
    · rw [hnone] at hother
      cases hother
    · exact Nat.lt_of_lt_of_le (hknown other (htaken ▸ hother)) hle
  · refine ⟨fun other hother => ?_, fun other hother => ?_⟩
    · rw [hslot, Option.some.injEq] at hother
      exact hother ▸ Nat.lt_of_lt_of_le (hr m hm).1 hle
    · rw [hnone] at hother
      cases hother

/-- And what another task has stays its own. -/
theorem ownedBeside (h : SlotStep σ r σ' r') (hq : q.Owned σ) (hapart : r.Apart q) :
    q.Owned σ' ∧ r'.Apart q := by
  have hle := h.nextSession
  have hlt : ∀ other, q.owns = some other → other < σ'.nextSession := fun other hother =>
    Nat.lt_of_lt_of_le (hq other hother).1 hle
  rcases h.manager with ⟨hslot, howns⟩ | ⟨hslot, -, howns⟩ | ⟨m, hm, hslot, hnone⟩
  · refine ⟨fun other hother => ⟨hlt other hother, hslot ▸ (hq other hother).2⟩, ?_⟩
    rcases howns with hsame | hnone | ⟨-, hnew, -⟩
    · exact hapart.of_le fun _ hm => hsame ▸ hm
    · intro other hother
      rw [hnone] at hother
      cases hother
    · intro other hother howns
      rw [hnew, Option.some.injEq] at hother
      exact Nat.lt_irrefl _ (hother ▸ (hq other howns).1)
  · refine ⟨fun other hother => ⟨hlt other hother, fun hin => ?_⟩, fun other hother hq' => ?_⟩
    · exact absurd (hslot.symm.trans hin) nofun
    · rcases howns with hnone | htaken
      · rw [hnone] at hother
        cases hother
      · exact (hq other hq').2 (htaken ▸ hother)
  · refine ⟨fun other hother => ⟨hlt other hother, fun hin => ?_⟩, fun other hother => ?_⟩
    · rw [hslot, Option.some.injEq] at hin
      exact hapart other (hin ▸ hm) hother
    · rw [hnone] at hother
      cases hother

/-- A session that records afterwards recorded before, or its start has begun to record. -/
theorem recording (h : SlotStep σ r σ' r') (hrecords : σ'.recording m = true) :
    σ.recording m = true ∨ r = .startOwns m ∧ r' = .startRecords m := by
  cases h with
  | creates => exact .inl (Slot.recording_of_silenced hrecords).1
  | @begins other =>
    rcases eq_or_ne m other with rfl | hne
    · exact .inr ⟨rfl, rfl⟩
    · exact .inl ((Slot.recording_setRecording_of_ne hne).symm.trans hrecords)
  | stores => exact .inl (Slot.recording_of_store hrecords).1
  | undoes => exact .inl (Slot.recording_of_silenced hrecords).1
  | undone => exact .inl (Slot.recording_of_silenced hrecords).1
  | silences => exact .inl (Slot.recording_of_silenced hrecords).1
  | putsBack => exact .inl (Slot.recording_of_store hrecords).1
  | saves => exact .inl (Slot.recording_of_silenced hrecords).1
  | _ => exact .inl hrecords

/-- Where the manager of a session that records was before, it is in the slot afterwards or the
task has it. -/
theorem located (h : SlotStep σ r σ' r') (hrecords : σ'.recording m = true)
    (hbefore : σ.recording m = true → σ.manager = some m ∨ r.owns = some m) :
    σ'.manager = some m ∨ r'.owns = some m := by
  cases h with
  | creates =>
    rcases hbefore (Slot.recording_of_silenced hrecords).1 with hin | ⟨⟨⟩⟩
    exact .inl hin
  | @begins other =>
    rcases eq_or_ne m other with rfl | hne
    · exact .inr rfl
    · exact hbefore ((Slot.recording_setRecording_of_ne hne).symm.trans hrecords)
  | stores =>
    -- what was in the slot is dropped
    obtain ⟨hrecorded, hnot⟩ := Slot.recording_of_store hrecords
    rcases hbefore hrecorded with hin | ⟨⟨⟩⟩
    · exact absurd hin hnot
    · exact .inl Slot.manager_store
  | undoes => exact hbefore (Slot.recording_of_silenced hrecords).1
  | undone =>
    obtain ⟨hrecorded, hne⟩ := Slot.recording_of_silenced hrecords
    rcases hbefore hrecorded with hin | ⟨⟨⟩⟩
    · exact .inl hin
    · exact absurd rfl hne
  | takes hm =>
    rcases hbefore hrecords with hin | ⟨⟨⟩⟩
    exact .inr (hm.symm.trans hin)
  | takesNothing hm =>
    rcases hbefore hrecords with hin | ⟨⟨⟩⟩
    rw [hm] at hin
    cases hin
  | silences => exact hbefore (Slot.recording_of_silenced hrecords).1
  | putsBack =>
    obtain ⟨hrecorded, hnot⟩ := Slot.recording_of_store hrecords
    rcases hbefore hrecorded with hin | ⟨⟨⟩⟩
    · exact absurd hin hnot
    · exact .inl Slot.manager_store
  | takesAll =>
    rcases hbefore hrecords with hin | ⟨⟨⟩⟩
    exact .inr hin
  | saves =>
    obtain ⟨hrecorded, hne⟩ := Slot.recording_of_silenced hrecords
    rcases hbefore hrecorded with hin | ⟨⟨⟩⟩
    · exact .inl hin
    · exact absurd rfl hne
  | stays => exact hbefore hrecords
  | aborts => exact hbefore hrecords
  | _ =>
    rcases hbefore hrecords with hin | ⟨⟨⟩⟩
    exact .inl hin

end SlotStep

namespace RecordingService

/-! ## Runs of the service -/

/-- `START_IN_PROGRESS` is a lock. -/
theorem startGuard :
    Tasks.Guard program (fun s => s.startInProgress) fun a => a.role.holdsStart where
  free {a} hfree := by cases a <;> first | rfl | cases hfree
  call {k s s' a} hbegins := by
    obtain ⟨hslot, hrole⟩ := slot_begins hbegins
    refine ⟨congrArg Slot.startInProgress hslot, ?_⟩
    rcases hrole with hrole | hrole | hrole <;> rw [hrole] <;> rfl
  step hstep := (slotStep_of_step hstep).startFlag
  spawn hstep hspawned := by
    rcases role_spawned hstep hspawned with hrole | hrole <;> rw [hrole] <;> rfl

/-- And so is `STOP_IN_PROGRESS`. -/
theorem stopGuard :
    Tasks.Guard program (fun s => s.stopInProgress) fun a => a.role.holdsStop where
  free {a} hfree := by cases a <;> first | rfl | cases hfree
  call {k s s' a} hbegins := by
    obtain ⟨hslot, hrole⟩ := slot_begins hbegins
    refine ⟨congrArg Slot.stopInProgress hslot, ?_⟩
    rcases hrole with hrole | hrole | hrole <;> rw [hrole] <;> rfl
  step hstep := (slotStep_of_step hstep).stopFlag
  spawn hstep hspawned := by
    rcases role_spawned hstep hspawned with hrole | hrole <;> rw [hrole] <;> rfl

variable {d : Tasks.Discipline Service ServiceTask Env ServiceCall}
  {c : Tasks.Config Service ServiceTask}

/-- Who holds which flag. -/
def flags : Tasks.Assertions Service ServiceTask :=
  (Tasks.Guard.assertions (fun s => s.startInProgress) fun a => a.role.holdsStart).and
    (Tasks.Guard.assertions (fun s => s.stopInProgress) fun a => a.role.holdsStop)

theorem hold_flags (h : Tasks.Reaches program d start c) : flags.Hold c :=
  (startGuard.hold (fun _ => rfl) h).and (stopGuard.hold (fun _ => rfl) h)

/-- Who has which manager. -/
def owned : Tasks.Assertions Service ServiceTask where
  shared s := s.slot.Known
  own s a := a.role.Owned s.slot
  pair a b := a.role.Apart b.role

theorem owns_begins {k : ServiceCall} {s s' : Service} {a : ServiceTask}
    (h : begins k s = some (s', a)) : a.role.owns = none := by
  obtain ⟨-, hrole⟩ := slot_begins h
  rcases hrole with hrole | hrole | hrole <;> rw [hrole] <;> rfl

theorem owns_spawned {env : Env} {s : Service} {a child : ServiceTask}
    {move : Tasks.Move Service ServiceTask} (h : step env s a = some move)
    (hspawned : move.spawned = some child) : child.role.owns = none := by
  rcases role_spawned h hspawned with hrole | hrole <;> rw [hrole] <;> rfl

theorem stable_owned : Tasks.Assertions.Stable .trivial owned program d where
  symm h := h.symm
  call {k s s' a} _ hs hbegins := by
    obtain ⟨hslot, -⟩ := slot_begins hbegins
    exact ⟨show s'.slot.Known from hslot.symm ▸ hs.2, .of_none _ (owns_begins hbegins)⟩
  callBeside {k s s' a b} _ _ _ hb hbegins := by
    obtain ⟨hslot, -⟩ := slot_begins hbegins
    exact ⟨show b.role.Owned s'.slot from hslot.symm ▸ hb.2, .of_none _ (owns_begins hbegins)⟩
  step {env s a move} htaken := by
    obtain ⟨-, ⟨-, hs⟩, ⟨-, hown⟩, heq⟩ := htaken
    exact (slotStep_of_step heq).owned hs hown
  beside {env s a b move} hbeside := by
    obtain ⟨⟨-, -, -, heq⟩, -, ⟨-, hb⟩, -, hapart⟩ := hbeside
    exact (slotStep_of_step heq).ownedBeside hb hapart
  spawn {env s a child move} htaken hspawned := by
    have hnone := owns_spawned htaken.eq hspawned
    exact ⟨.of_none _ hnone, (Role.Apart.of_none _ hnone).symm⟩
  spawnBeside hbeside hspawned := .of_none _ (owns_spawned hbeside.eq hspawned)

theorem hold_owned (h : Tasks.Reaches program d start c) : owned.Hold c := by
  refine stable_owned.of_reaches (fun _ _ => Tasks.Assertions.hold_trivial) ?_ h
  exact ⟨nofun, fun _ => .of_none _ rfl, fun _ _ _ => .of_none _ rfl⟩

/-- A session that records has its manager in the slot or in the hands of a task. -/
theorem exists_owner (h : Tasks.Reaches program d start c) {m : SessionId}
    (hrecords : (c.shared.sessions m).state.isRecording = true) :
    c.shared.manager = some m ∨ ∃ t, (c.tasks t).role.owns = some m := by
  have habsent : Tasks.Absent (fun _ => True) program d (fun a => a.role.owns = some m)
      (fun s => s.slot.recording m = true → s.slot.manager = some m) := {
    free := by
      intro a hfree howns
      cases a <;> first | cases howns | cases hfree
    call := by
      intro c t k s' a _ _ hbegins _ hbefore
      rw [(slot_begins hbegins).1]
      exact hbefore
    stay := by
      intro c t child env move _ _ hstep _ hmoved hbefore hrecords
      exact ((slotStep_of_step hstep).located hrecords fun hrecorded =>
        .inl (hbefore hrecorded)).resolve_right hmoved
    leave := by
      intro c t child env move _ _ hstep howns hmoved _ _ hrecords
      exact ((slotStep_of_step hstep).located hrecords fun _ => .inr howns).resolve_right hmoved }
  by_contra hnone
  obtain ⟨hslot, howners⟩ := not_or.mp hnone
  exact hslot (habsent.of_reaches (fun _ _ => True.intro) (fun _ => Bool.false_ne_true.elim) h
    (not_exists.mp howners) hrecords)

end RecordingService

end MeetilyLocal
