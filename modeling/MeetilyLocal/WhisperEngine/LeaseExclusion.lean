import MeetilyLocal.Library.Counter
import MeetilyLocal.WhisperEngine.EngineLease

/-!
# What the lease excludes

The lease is a counter, and a batch job reads it before it loads or unloads the model: between the
two it awaits, and a live worker may acquire the lease. Where no live worker does, no batch job
loads or unloads the model while a worker holds the lease (`EngineLease.excludes_of_reaches`).
-/

namespace MeetilyLocal

namespace EngineTask

/-- A live worker that has acquired the lease and has not released it. -/
def holdsLease : EngineTask → Bool
  | .worker _ .acquire => false
  | .worker _ _ => true
  | _ => false

/-- A batch job in `load_model` or `unload_model`. -/
def performs : EngineTask → Bool
  | .batch _ _ (.load _ _) => true
  | .batch _ _ (.unload _) => true
  | _ => false

/-- A live worker that is about to acquire the lease. -/
def acquires : EngineTask → Bool
  | .worker _ .acquire => true
  | _ => false

/-- A batch job that found the lease free, up to the end of its `load_model` or `unload_model`. -/
def foundFree : EngineTask → Bool
  | .batch _ _ (.discover _) => true
  | .batch _ _ (.load _ _) => true
  | .batch _ _ .findEngine => true
  | .batch _ _ (.unload _) => true
  | _ => false

theorem holdsLease_of_acquires {a : EngineTask} (h : a.acquires = true) : a.holdsLease = false := by
  cases a with
  | worker purpose pc => cases pc <;> first | rfl | cases h
  | _ => cases h

theorem foundFree_of_holdsLease {a : EngineTask} (h : a.holdsLease = true) :
    a.foundFree = false := by
  cases a with
  | worker purpose pc => rfl
  | _ => cases h

theorem foundFree_of_performs {a : EngineTask} (h : a.performs = true) : a.foundFree = true := by
  cases a with
  | batch kind requested pc => cases pc <;> first | rfl | cases h
  | _ => cases h

end EngineTask

namespace EngineLease

/-- What a step can do with the lease. -/
inductive LeaseStep : ℕ → EngineTask → ℕ → EngineTask → Prop where
  /-- nothing -/
  | stays {n : ℕ} {a a' : EngineTask} : a'.holdsLease = a.holdsLease →
      (a'.foundFree = true → a.foundFree = true) → LeaseStep n a n a'
  /-- a live worker acquires it -/
  | acquires {n : ℕ} {a a' : EngineTask} : a.acquires = true → a'.holdsLease = true →
      LeaseStep n a (n + 1) a'
  /-- a live worker releases it -/
  | releases {n : ℕ} {a : EngineTask} : a.holdsLease = true → LeaseStep n a (n - 1) .finished
  /-- a batch job finds it free -/
  | findsFree {a a' : EngineTask} : a.holdsLease = false → a'.holdsLease = false →
      LeaseStep 0 a 0 a'

/-- A batch job that is right about the lease finds it free. -/
theorem LeaseStep.of_free {n : ℕ} {a a' : EngineTask} (hzero : n = 0) (hidle : a.holdsLease = false)
    (hidle' : a'.holdsLease = false) : LeaseStep n a n a' := by
  subst hzero
  exact .findsFree hidle hidle'

variable {env : EngineEnv} {s : SharedEngine} {move : Tasks.Move SharedEngine EngineTask}

theorem isLiveLeased_eq_false (h : s.isLiveLeased = false) : s.leaseCount = 0 := by
  simpa [SharedEngine.isLiveLeased] using h

/-- A wait that ends well found the lease free. -/
theorem leaseCount_of_waitStep {pc : WaitPc} (h : s.waitStep env pc = .ends true) :
    s.leaseCount = 0 := by
  rcases hleased : s.isLiveLeased with _ | _
  · exact isLiveLeased_eq_false hleased
  · cases pc <;> rcases htimed : env.timedOut with _ | _ <;>
      simp [SharedEngine.waitStep, hleased, htimed] at h

/-- A step inside a program that works on the engine leaves the lease. -/
theorem leaseStep_through {Pc : Type} {a : EngineTask} {within : Pc → EngineTask}
    {after : Bool → EngineTask} {result : Option (WhisperEngine × Goes Pc)}
    (h : through s within after result = some move)
    (hwithin : ∀ pc, (within pc).holdsLease = a.holdsLease ∧
      ((within pc).foundFree = true → a.foundFree = true))
    (hafter : ∀ ok, (after ok).holdsLease = a.holdsLease ∧
      ((after ok).foundFree = true → a.foundFree = true)) :
    LeaseStep s.leaseCount a move.shared.leaseCount move.task := by
  rcases result with _ | ⟨engine, pc | ok⟩
  · cases h
  · cases h
    obtain ⟨hholds, hfree⟩ := hwithin pc
    exact .stays hholds hfree
  · cases h
    obtain ⟨hholds, hfree⟩ := hafter ok
    exact .stays hholds hfree

/-- What a live worker does with the lease. -/
theorem leaseStep_workerStep {purpose : DecodePurpose} {pc : WorkerAt}
    (h : workerStep purpose env s pc = some move) :
    LeaseStep s.leaseCount (.worker purpose pc) move.shared.leaseCount move.task := by
  cases pc with
  | acquire =>
    cases h
    cases purpose
    · exact .acquires rfl rfl
    · exact .acquires rfl rfl
  | initEngine =>
    rw [workerStep] at h
    split at h
    · cases h
      exact .stays rfl id
    · split at h <;> cases h <;> exact .stays rfl id
  | checkLoaded =>
    rw [workerStep] at h
    split at h
    · cases h
    · cases h
      split <;> exact .stays rfl id
  | readModel =>
    rw [workerStep] at h
    split at h <;> cases h
    exact .stays rfl id
  | resolve current =>
    rw [workerStep] at h
    split at h <;> cases h <;> exact .stays rfl id
  | load target pc =>
    rw [workerStep] at h
    refine leaseStep_through h (fun _ => ⟨rfl, id⟩) fun ok => ?_
    cases ok <;> exact ⟨rfl, id⟩
  | receive =>
    cases h
    cases purpose <;> split <;> exact .stays rfl id
  | lookForEngine =>
    cases h
    split <;> exact .stays rfl id
  | checkDecode =>
    rw [workerStep] at h
    split at h
    · cases h
    · cases h
      split <;> exact .stays rfl id
  | decode pc =>
    rw [workerStep] at h
    exact leaseStep_through h (fun _ => ⟨rfl, id⟩) fun _ => ⟨rfl, id⟩
  | release =>
    cases h
    exact .releases rfl

/-- What a batch job does with the lease. -/
theorem leaseStep_batchStep {kind : BatchKind} {requested : Option String} {pc : BatchAt}
    (h : batchStep kind requested env s pc = some move) :
    LeaseStep s.leaseCount (.batch kind requested pc) move.shared.leaseCount move.task := by
  cases pc with
  | acquireGuard =>
    rw [batchStep] at h
    split at h
    · cases h
      exact .stays rfl id
    · cases h
      split <;> exact .stays rfl id
  | readEngine =>
    cases h
    split <;> exact .stays rfl id
  | readTarget =>
    rw [batchStep] at h
    split at h <;> cases h <;> exact .stays rfl id
  | readModel target =>
    rw [batchStep] at h
    split at h
    · cases h
    · cases h
      split <;> exact .stays rfl id
  | checkLoad target current =>
    rw [batchStep] at h
    split at h
    · cases h
      split <;> exact .stays rfl id
    · next hfree =>
      cases h
      exact .of_free (isLiveLeased_eq_false (Bool.eq_false_iff.mpr hfree)) rfl rfl
  | waitLoad target pc =>
    rw [batchStep] at h
    split at h
    · cases h
      exact .stays rfl id
    · next hends =>
      cases h
      exact .of_free (leaseCount_of_waitStep hends) rfl rfl
    · cases h
      exact .stays rfl id
  | discover target =>
    cases h
    exact .stays rfl fun _ => rfl
  | load target pc =>
    rw [batchStep] at h
    refine leaseStep_through h (fun _ => ⟨rfl, id⟩) fun ok => ?_
    cases ok <;> exact ⟨rfl, fun _ => rfl⟩
  | transcribe =>
    cases h
    split <;> exact .stays rfl id
  | decode pc =>
    rw [batchStep] at h
    exact leaseStep_through h (fun _ => ⟨rfl, id⟩) fun _ => ⟨rfl, id⟩
  | checkRecording =>
    cases h
    split <;> exact .stays rfl id
  | checkUnload =>
    rw [batchStep] at h
    rcases hleased : s.isLiveLeased with _ | _
    · rw [hleased] at h
      cases h
      exact .of_free (isLiveLeased_eq_false hleased) rfl rfl
    · rw [hleased] at h
      cases h
      exact .stays rfl id
  | waitUnload pc =>
    rw [batchStep] at h
    split at h
    · cases h
      exact .stays rfl id
    · next hends =>
      cases h
      exact .of_free (leaseCount_of_waitStep hends) rfl rfl
    · cases h
      exact .stays rfl id
  | findEngine =>
    cases h
    split <;> exact .stays rfl fun _ => rfl
  | unload pc =>
    rw [batchStep] at h
    exact leaseStep_through h (fun _ => ⟨rfl, id⟩) fun _ => ⟨rfl, fun _ => rfl⟩
  | releaseGuard =>
    cases h
    exact .stays rfl id

/-- **Inversion.** What a step can do with the lease. -/
theorem leaseStep_of_step {a : EngineTask} (h : step env s a = some move) :
    LeaseStep s.leaseCount a move.shared.leaseCount move.task := by
  cases a with
  | free => cases h
  | worker purpose pc => exact leaseStep_workerStep h
  | batch kind requested pc => exact leaseStep_batchStep h
  | finished => cases h

theorem spawned_through {Pc : Type} {within : Pc → EngineTask} {after : Bool → EngineTask}
    {result : Option (WhisperEngine × Goes Pc)} (h : through s within after result = some move) :
    move.spawned = none := by
  rcases result with _ | ⟨engine, pc | ok⟩ <;> cases h <;> rfl

/-- No task is spawned. -/
theorem spawned_eq_none {a : EngineTask} (h : step env s a = some move) : move.spawned = none := by
  cases a with
  | free => cases h
  | finished => cases h
  | worker purpose pc =>
    cases pc with
    | load target pc => exact spawned_through h
    | decode pc => exact spawned_through h
    | _ => grind [step, workerStep, goTo]
  | batch kind requested pc =>
    cases pc with
    | load target pc => exact spawned_through h
    | decode pc => exact spawned_through h
    | unload pc => exact spawned_through h
    | _ => grind [step, batchStep, goTo]

/-- The lease counts its holders. -/
theorem leaseCounter :
    Tasks.Counter program (fun s => s.leaseCount) EngineTask.holdsLease where
  free {a} hfree := by cases a <;> first | rfl | cases hfree
  call {k s s' a} hbegins := by cases k <;> cases hbegins <;> exact ⟨rfl, rfl⟩
  step {env s a move} hstep := by
    have hlease := leaseStep_of_step hstep
    generalize hn : s.leaseCount = n at hlease
    generalize hn' : move.shared.leaseCount = n' at hlease
    generalize move.task = a' at hlease
    cases hlease with
    | stays hholds => exact .inl ⟨rfl, hholds⟩
    | acquires hacquires hheld =>
      exact .inr (.inl ⟨EngineTask.holdsLease_of_acquires hacquires, rfl, hheld⟩)
    | releases hheld => exact .inr (.inr ⟨hheld, rfl, rfl⟩)
    | findsFree hidle hidle' => exact .inl ⟨rfl, hidle'.trans hidle.symm⟩
  spawn hstep hspawned := by
    rw [spawned_eq_none hstep] at hspawned
    cases hspawned

/-- No live worker acquires the lease while a batch job that found it free goes on to load or
unload the model. -/
def acquiresOutside : Tasks.Discipline SharedEngine EngineTask EngineEnv EngineCall where
  call _ _ := True
  callBeside _ _ := True
  step _ _ _ := True
  stepBeside _ _ a b := a.acquires = true → b.foundFree = false

/-- A batch job that found the lease free, and a live worker that holds it, exclude each other. -/
def exclusive : Tasks.Assertions SharedEngine EngineTask where
  shared _ := True
  own _ _ := True
  pair a b := (a.foundFree = true → b.holdsLease = false) ∧
    (b.foundFree = true → a.holdsLease = false)

theorem stable_exclusive :
    Tasks.Assertions.Stable
      (Tasks.Counter.assertions (fun s => s.leaseCount) EngineTask.holdsLease) exclusive program
      acquiresOutside where
  symm h := ⟨h.2, h.1⟩
  call _ _ _ := ⟨trivial, trivial⟩
  callBeside {k s s' a b} _ _ _ _ hbegins := by
    refine ⟨trivial, ?_⟩
    cases k <;> cases hbegins <;> exact ⟨nofun, fun _ => rfl⟩
  step _ := ⟨trivial, trivial⟩
  beside {env s a b move} hbeside := by
    obtain ⟨⟨-, -, -, heq⟩, hallowed, ⟨hcount, -⟩, -, hab, hba⟩ := hbeside
    refine ⟨trivial, ?_⟩
    have hlease := leaseStep_of_step heq
    generalize hn : s.leaseCount = n at hlease hcount
    generalize move.shared.leaseCount = n' at hlease
    generalize move.task = a' at hlease
    cases hlease with
    | stays hholds hfree =>
      exact ⟨fun hfound => hab (hfree hfound), fun hfound => hholds.trans (hba hfound)⟩
    | acquires hacquires hheld =>
      refine ⟨fun hfound => ?_, fun hfound => ?_⟩
      · rw [EngineTask.foundFree_of_holdsLease hheld] at hfound
        cases hfound
      · rw [hallowed hacquires] at hfound
        cases hfound
    | releases hheld => exact ⟨nofun, fun _ => rfl⟩
    | findsFree hidle hidle' =>
      refine ⟨fun _ => ?_, fun _ => hidle'⟩
      -- a holder would have been counted
      rcases hheld : b.holdsLease with _ | _
      · rfl
      · have hpos : 0 < s.leaseCount := hcount hheld
        exact absurd hn (Nat.ne_of_gt hpos)
  spawn {env s a child move} htaken hspawned := by
    rw [spawned_eq_none htaken.eq] at hspawned
    cases hspawned
  spawnBeside {env s a b child move} hbeside hspawned := by
    rw [spawned_eq_none hbeside.eq] at hspawned
    cases hspawned

/-- No batch job loads or unloads the model while a live worker holds the lease. -/
def Excludes (c : Tasks.Config SharedEngine EngineTask) : Prop :=
  ∀ t u, (c.tasks t).performs = true → (c.tasks u).holdsLease = false

/-- **Exclusion.** While no live worker acquires the lease between a batch job's last look at it and
the end of the load or unload, no batch job loads or unloads the model while a worker holds it. -/
theorem excludes_of_reaches {c : Tasks.Config SharedEngine EngineTask}
    (h : Tasks.Reaches program acquiresOutside start c) : Excludes c := by
  have hexclusive : exclusive.Hold c := by
    refine stable_exclusive.of_reaches (fun _ => leaseCounter.hold (fun _ => rfl) rfl) ?_ h
    exact ⟨trivial, fun _ => trivial, fun _ _ _ => ⟨nofun, nofun⟩⟩
  intro t u hperforms
  have hfound := EngineTask.foundFree_of_performs hperforms
  rcases eq_or_ne t u with rfl | hne
  · rcases hheld : (c.tasks t).holdsLease with _ | _
    · rfl
    · rw [EngineTask.foundFree_of_holdsLease hheld] at hfound
      cases hfound
  · exact (hexclusive.pair t u hne).1 hfound

/-! ### A worker and a batch job -/

instance (k : EngineCall) (s : SharedEngine) : Decidable (acquiresOutside.call k s) :=
  inferInstanceAs (Decidable True)

instance (k : EngineCall) (b : EngineTask) : Decidable (acquiresOutside.callBeside k b) :=
  inferInstanceAs (Decidable True)

instance (env : EngineEnv) (s : SharedEngine) (a : EngineTask) :
    Decidable (acquiresOutside.step env s a) :=
  inferInstanceAs (Decidable True)

instance (env : EngineEnv) (s : SharedEngine) (a b : EngineTask) :
    Decidable (acquiresOutside.stepBeside env s a b) :=
  inferInstanceAs (Decidable (a.acquires = true → b.foundFree = false))

/-- Steps of a task; the channel of a worker is closed, and nothing fails. -/
def steps (t n : ℕ) : List (Tasks.Label EngineEnv EngineCall) :=
  List.replicate n (.run t ⟨true, false, false, false, some "large-v3", .model, some "small"⟩ 9)

/-- A recording transcribes with one model: it acquires the lease, sets the engine up and loads. -/
def liveWorker (t : ℕ) : List (Tasks.Label EngineEnv EngineCall) :=
  .call t (.worker .finalPath) :: steps t 4

/-- The batch job waits until the worker has released the lease, and then loads. -/
def waits : List (Tasks.Label EngineEnv EngineCall) :=
  liveWorker 0 ++ .call 1 (.batch .retranscription none) :: steps 1 7 ++ steps 0 7 ++ steps 1 4

/-- The batch job finds the lease free, a worker acquires it, and the batch job loads. -/
def slipsIn : List (Tasks.Label EngineEnv EngineCall) :=
  liveWorker 0 ++ steps 0 7 ++ .call 1 (.batch .retranscription none) :: steps 1 5 ++
    .call 2 (.worker .finalPath) :: steps 2 1 ++ steps 1 1

/-- A batch job that waited. -/
theorem excludes_waits :
    ∃ c, program.runBelow acquiresOutside 10 start waits = some c ∧
      (c.tasks 1).performs = true ∧ Excludes c := by
  obtain ⟨c, hrun, hperforms⟩ := Option.map_eq_some_iff.mp
    (show (program.runBelow acquiresOutside 10 start waits).map (fun c => (c.tasks 1).performs) =
      some true from rfl)
  have hreach : Tasks.Reaches program acquiresOutside start c :=
    .of_runBelow (fun _ => trivial) (fun _ _ _ _ => rfl) (fun _ _ => rfl) .refl hrun
  exact ⟨c, hrun, hperforms, excludes_of_reaches hreach⟩

/-- In general a batch job loads the model while a live worker holds the lease. -/
theorem not_excludes_slipsIn : ¬∀ c, Tasks.Reaches program .free start c → Excludes c := by
  intro h
  obtain ⟨c, hrun, hc⟩ := Option.map_eq_some_iff.mp
    (show (program.runAll start slipsIn).map (fun c =>
      ((c.tasks 1).performs, (c.tasks 2).holdsLease)) = some (true, true) from rfl)
  obtain ⟨hperforms, hheld⟩ := Prod.mk.inj hc
  have hfree := h c (.of_runAll .refl hrun) 1 2 hperforms
  rw [hheld] at hfree
  cases hfree

end EngineLease

end MeetilyLocal
