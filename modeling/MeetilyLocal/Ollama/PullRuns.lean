import Mathlib.Data.Finset.Erase
import Mathlib.Data.Finset.Insert
import MeetilyLocal.Library.Tasks
import MeetilyLocal.Ollama.Pull

/-!
# Pulls beside each other

Calls of `pull_ollama_model_with_progress` (`ollama/client.rs`) run as tasks that are interleaved at
their awaits. What they share is the set `DOWNLOADING_MODELS`: a call looks for its model under a
read lock and marks it under a write lock of its own, and each way out has to remove the mark.

Pulls end clean (`Clean`) in every run in which each call that passes the check is answered, its
stream cut between characters and its percentages never falling, and does not pass it while another
one is between its check and its mark (`orderly`, `clean_of_reaches`). Without any one of these it
goes wrong (`not_clean_of_disorder`).
-/

namespace MeetilyLocal

namespace Ollama

/-- What the calls share: the static `DOWNLOADING_MODELS`. -/
structure Shared : Type where
  /-- the names that are marked -/
  downloading : Finset String

/-- Where a call is. -/
inductive PullTask : Type where
  /-- a task that does not exist -/
  | free : PullTask
  /-- before it looks for its model in the set -/
  | checks : Pull → PullTask
  /-- before it marks its model -/
  | inserts : Pull → PullTask
  /-- before the server has answered -/
  | sends : Pull → PullTask
  /-- an error status, before the mark is removed -/
  | refuses : Pull → Answer → PullTask
  /-- before the next chunk of the stream; what is in the buffer, and the chunks that will come -/
  | reads : Pull → Answer → Progress × List Char → List (List UInt8) → PullTask
  /-- an error that a line told, before the mark is removed -/
  | stops : Pull → Progress → String → PullTask
  /-- the end of the stream, before the mark is removed -/
  | completes : Pull → Progress → PullTask
  /-- the task that removes the mark after an error in the stream -/
  | removes : String → PullTask
  /-- that task has run -/
  | removed : PullTask
  /-- it was refused with a message -/
  | rejected : Pull → Except String Unit → PullTask
  /-- it has ended -/
  | ended : Pull → Ending → PullTask

namespace PullTask

/-- The model that a task pulls, from its mark until that is removed. -/
def pulls : PullTask → Option String
  | sends p | refuses p _ | reads p _ _ _ | stops p _ _ | completes p _ => some p.modelName
  | removes modelName => some modelName
  | _ => none

/-- The model that a task is about to mark. -/
def marks : PullTask → Option String
  | inserts p => some p.modelName
  | _ => none

/-- How far a task is. -/
def progress : PullTask → Option Progress
  | reads _ _ state _ => some state.1
  | stops _ progress _ | completes _ progress => some progress
  | ended _ ending => some ending.progress
  | _ => none

end PullTask

/-- How a call begins. -/
def begins (p : Pull) (s : Shared) : Option (Shared × PullTask) := some (s, .checks p)

namespace Shared

/-- `DOWNLOADING_MODELS.write().await.insert(..)` -/
def insert (s : Shared) (modelName : String) : Shared := ⟨Insert.insert modelName s.downloading⟩

/-- `DOWNLOADING_MODELS.write().await.remove(..)` -/
def remove (s : Shared) (modelName : String) : Shared := ⟨s.downloading.erase modelName⟩

end Shared

/-- One step of a call. -/
def step (b : Build) (s : Shared) : PullTask → Option (Tasks.Move Shared PullTask)
  | .checks p =>
    if p.modelName ∈ s.downloading then
      some ⟨s, .rejected p (.error p.alreadyDownloading), none⟩
    else some ⟨s, .inserts p, none⟩
  | .inserts p => some ⟨s.insert p.modelName, .sends p, none⟩
  | .sends p =>
    match p.server with
    -- the mark stays
    | .fails e => some ⟨s, .ended p (p.unsent e), none⟩
    | .answers a =>
      if a.status.isSuccess then some ⟨s, .reads p a (.start, []) a.chunks, none⟩
      else some ⟨s, .refuses p a, none⟩
  | .refuses p a => some ⟨s.remove p.modelName, .ended p (p.refused a), none⟩
  | .reads p a state [] =>
    match a.broken with
    | some e =>
      some ⟨s, .ended p (p.stopped state.1 (Pull.streamErrorMessage e)),
        some (.removes p.modelName)⟩
    | none => some ⟨s, .completes p state.1, none⟩
  | .reads p a state (chunk :: chunks) =>
    match readChunk b p.modelName state chunk with
    | (state, none) => some ⟨s, .reads p a state chunks, none⟩
    | (state, some (.error message)) => some ⟨s, .stops p state.1 message, none⟩
    -- the mark stays
    | (state, some .overflow) => some ⟨s, .ended p ⟨state.1, .panicked⟩, none⟩
  | .stops p progress message =>
    some ⟨s.remove p.modelName, .ended p (p.stopped progress message), none⟩
  | .completes p progress => some ⟨s.remove p.modelName, .ended p (p.completed progress), none⟩
  | .removes modelName => some ⟨s.remove modelName, .removed, none⟩
  | .free | .removed | .rejected _ _ | .ended _ _ => none

/-- The program that the calls run. -/
def program (b : Build) : Tasks.Program Shared PullTask Unit Pull where
  isFree task := match task with | .free => true | _ => false
  begins := begins
  step _ := step b

/-- Nothing has been called. -/
def initial : Tasks.Config Shared PullTask := ⟨⟨∅⟩, fun _ => .free⟩

/-- **Pulls end clean.** -/
structure Clean (b : Build) (c : Tasks.Config Shared PullTask) : Prop where
  /-- at most one task pulls a model -/
  one : ∀ t u modelName, t ≠ u → (c.tasks t).pulls = some modelName →
    (c.tasks u).pulls ≠ some modelName
  /-- a model that is marked is being pulled -/
  listed : ∀ modelName ∈ c.shared.downloading, ∃ t, (c.tasks t).pulls = some modelName
  /-- no subtraction has gone below zero -/
  noUnderflow : ∀ t, ∀ progress ∈ (c.tasks t).progress, progress.underflowed = false
  /-- what a call did is what it would have done with its stream in one chunk -/
  uncut : ∀ t p ending, c.tasks t = .ended p ending → ending = p.joined.outcome b

/-- The server answers. -/
def Pull.Answered (p : Pull) : Prop :=
  match p.server with
  | .fails _ => False
  | .answers _ => True

/-- The server answers, with a stream that is cut between characters and percentages that never
fall. -/
structure Pull.Orderly (b : Build) (p : Pull) : Prop where
  /-- it answers -/
  answered : p.Answered
  /-- no chunk but the last ends within a character -/
  cleanlyCut : p.CleanlyCut
  /-- the percentages never fall -/
  neverFalls : p.NeverFalls b

/-- A call that passes the check is orderly, and does not pass it while another one is about to mark
its model. -/
def orderly (b : Build) : Tasks.Discipline Shared PullTask Unit Pull where
  call _ _ := True
  callBeside _ _ := True
  step _ s a :=
    match a with
    | .checks p => p.modelName ∈ s.downloading ∨ p.Orderly b
    | _ => True
  stepBeside _ s a other :=
    match a with
    | .checks p => p.modelName ∈ s.downloading ∨ other.marks ≠ some p.modelName
    | _ => True

/-! ## What a step does -/

/-- How a call that has passed the check will end. -/
def PullTask.forecast (b : Build) : PullTask → Option (Pull × Ending)
  | inserts p | sends p => some (p, p.outcome b)
  | refuses p a => some (p, p.refused a)
  | reads p a state chunks => some (p, p.finishReading b a state chunks)
  | stops p progress message => some (p, p.stopped progress message)
  | completes p progress => some (p, p.completed progress)
  | ended p ending => some (p, ending)
  | _ => none

/-- The ways in which a step changes what is marked and by whom. -/
inductive Moves (s : Shared) (a : PullTask) : Tasks.Move Shared PullTask → Prop where
  /-- nothing changes -/
  | stays {task : PullTask} : task.pulls = a.pulls → task.marks = none → Moves s a ⟨s, task, none⟩
  /-- the check is passed -/
  | passes {p : Pull} : a = .checks p → p.modelName ∉ s.downloading →
      Moves s a ⟨s, .inserts p, none⟩
  /-- the model is marked -/
  | marks {p : Pull} : a = .inserts p → Moves s a ⟨s.insert p.modelName, .sends p, none⟩
  /-- the mark is removed -/
  | removes {task : PullTask} {modelName : String} : a.pulls = some modelName →
      task.pulls = none → task.marks = none → Moves s a ⟨s.remove modelName, task, none⟩
  /-- another task will remove it -/
  | hands {p : Pull} {ending : Ending} : a.pulls = some p.modelName →
      Moves s a ⟨s, .ended p ending, some (.removes p.modelName)⟩
  /-- the mark stays behind -/
  | leaves {p : Pull} {ending : Ending} : a.pulls = some p.modelName →
      ¬p.Answered ∨ ending.exit = .panicked → Moves s a ⟨s, .ended p ending, none⟩

/-- What one step does to the marks. -/
theorem step_moves {b : Build} {s : Shared} {a : PullTask} {move : Tasks.Move Shared PullTask}
    (h : step b s a = some move) : Moves s a move := by
  cases a with
  | free => cases h
  | removed => cases h
  | rejected p result => cases h
  | ended p ending => cases h
  | checks p =>
    rw [step] at h
    split_ifs at h with hmem
    · cases h
      exact .stays rfl rfl
    · cases h
      exact .passes rfl hmem
  | inserts p =>
    cases h
    exact .marks rfl
  | sends p =>
    rw [step] at h
    split at h
    · next e hserver =>
      cases h
      exact .leaves rfl (.inl fun hanswered => by simp [Pull.Answered, hserver] at hanswered)
    · split_ifs at h
      · cases h
        exact .stays rfl rfl
      · cases h
        exact .stays rfl rfl
  | refuses p a =>
    cases h
    exact .removes rfl rfl rfl
  | reads p a state chunks =>
    cases chunks with
    | nil =>
      rw [step] at h
      split at h
      · cases h
        exact .hands rfl
      · cases h
        exact .stays rfl rfl
    | cons chunk chunks =>
      rw [step] at h
      split at h
      · cases h
        exact .stays rfl rfl
      · cases h
        exact .stays rfl rfl
      · cases h
        exact .leaves rfl (.inr rfl)
  | stops p progress message =>
    cases h
    exact .removes rfl rfl rfl
  | completes p progress =>
    cases h
    exact .removes rfl rfl rfl
  | removes modelName =>
    cases h
    exact .removes rfl rfl rfl

/-- A step does not change how a call will end. -/
theorem forecast_step {b : Build} {s : Shared} {a : PullTask}
    {move : Tasks.Move Shared PullTask} (h : step b s a = some move) :
    move.task.forecast b = a.forecast b ∨
      ∃ p, a = .checks p ∧ p.modelName ∉ s.downloading ∧ move.task = .inserts p := by
  cases a with
  | free => cases h
  | removed => cases h
  | rejected p result => cases h
  | ended p ending => cases h
  | checks p =>
    rw [step] at h
    split_ifs at h with hmem
    · cases h
      exact .inl rfl
    · cases h
      exact .inr ⟨p, rfl, hmem, rfl⟩
  | inserts p =>
    cases h
    exact .inl rfl
  | sends p =>
    rw [step] at h
    split at h
    · next e hserver =>
      cases h
      simp [PullTask.forecast, Pull.outcome, hserver]
    · next answer hserver =>
      split_ifs at h with hsuccess
      · cases h
        simp [PullTask.forecast, Pull.outcome, hserver, hsuccess]
      · cases h
        simp [PullTask.forecast, Pull.outcome, hserver, hsuccess]
  | refuses p a =>
    cases h
    exact .inl rfl
  | reads p a state chunks =>
    cases chunks with
    | nil =>
      rw [step] at h
      split at h
      · next e hbroken =>
        cases h
        simp [PullTask.forecast, Pull.finishReading, Pull.finish, hbroken]
      · next hbroken =>
        cases h
        simp [PullTask.forecast, Pull.finishReading, Pull.finish, hbroken]
    | cons chunk chunks =>
      rw [step] at h
      left
      split at h
      · next hread =>
        cases h
        simp only [PullTask.forecast, Pull.finishReading, LineBuffer.foldUntil_cons_of_none hread]
      · next hread =>
        cases h
        simp only [PullTask.forecast, Pull.finishReading, LineBuffer.foldUntil_cons_of_some hread,
          Pull.finish]
      · next hread =>
        cases h
        simp only [PullTask.forecast, Pull.finishReading, LineBuffer.foldUntil_cons_of_some hread,
          Pull.finish]
  | stops p progress message =>
    cases h
    exact .inl rfl
  | completes p progress =>
    cases h
    exact .inl rfl
  | removes modelName =>
    cases h
    exact .inl rfl

/-- A subtraction that went below zero on the way shows in how a call ends. -/
theorem forecast_of_progress {b : Build} {a : PullTask} {progress : Progress}
    (h : a.progress = some progress) : ∃ p ending, a.forecast b = some (p, ending) ∧
      (ending.progress.underflowed = false → progress.underflowed = false) := by
  cases a with
  | reads p answer state chunks =>
    cases h
    exact ⟨p, _, rfl, not_underflowed_of_finishReading⟩
  | stops p progress' message =>
    cases h
    exact ⟨p, _, rfl, id⟩
  | completes p progress' =>
    cases h
    exact ⟨p, _, rfl, id⟩
  | ended p ending =>
    cases h
    exact ⟨p, ending, rfl, id⟩
  | _ => cases h

/-! ## The invariant -/

/-- The model that a task has passed the check for, until its mark is removed. -/
def PullTask.claims (a : PullTask) : Option String := a.marks.or a.pulls

/-- What holds where a task is. -/
structure Own (b : Build) (s : Shared) (a : PullTask) : Prop where
  /-- what it pulls is marked -/
  listed : ∀ modelName, a.pulls = some modelName → modelName ∈ s.downloading
  /-- its call is orderly and will end as if its stream came in one chunk -/
  forecast : ∀ p ending, a.forecast b = some (p, ending) →
    p.Orderly b ∧ ending = p.joined.outcome b

/-- What holds of all tasks: no two have passed the check for the same model. -/
def inv (b : Build) : Tasks.Assertions Shared PullTask where
  shared _ := True
  own := Own b
  pair a a' := ∀ modelName, a.claims = some modelName → a'.claims ≠ some modelName

theorem claims_of_pulls {a : PullTask} {modelName : String} (h : a.pulls = some modelName) :
    a.claims = some modelName := by
  cases a <;> first | exact h | cases h

/-- A task that has passed the check marks its model or pulls it. -/
theorem claims_cases {a : PullTask} {modelName : String} (h : a.claims = some modelName) :
    a.marks = some modelName ∨ a.pulls = some modelName := by
  rw [PullTask.claims, Option.or_eq_some_iff] at h
  exact h.imp id And.right

/-- A step keeps what is marked for another task. -/
theorem listed_of_moves {s : Shared} {a other : PullTask} {move : Tasks.Move Shared PullTask}
    (h : Moves s a move) (hpair : ∀ m, a.claims = some m → other.claims ≠ some m)
    {modelName : String} (hpulls : other.pulls = some modelName)
    (hlisted : modelName ∈ s.downloading) : modelName ∈ move.shared.downloading := by
  cases h with
  | stays | passes | hands | leaves => exact hlisted
  | marks => exact Finset.mem_insert_of_mem hlisted
  | removes ha =>
    refine Finset.mem_erase.mpr ⟨?_, hlisted⟩
    rintro rfl
    exact hpair _ (claims_of_pulls ha) (claims_of_pulls hpulls)

/-- A step keeps what is marked for the task that takes it. -/
theorem own_listed_of_moves {s : Shared} {a : PullTask} {move : Tasks.Move Shared PullTask}
    (h : Moves s a move) (hlisted : ∀ m, a.pulls = some m → m ∈ s.downloading)
    {modelName : String} (hpulls : move.task.pulls = some modelName) :
    modelName ∈ move.shared.downloading := by
  cases h with
  | stays hsame => exact hlisted modelName (hsame ▸ hpulls)
  | passes | hands | leaves => cases hpulls
  | marks =>
    cases hpulls
    exact Finset.mem_insert_self _ _
  | removes _ hnone =>
    rw [hnone] at hpulls
    cases hpulls

/-- Only by passing the check does a task come to claim a model. -/
theorem claims_of_moves {s : Shared} {a : PullTask} {move : Tasks.Move Shared PullTask}
    (h : Moves s a move) {modelName : String} (hclaims : move.task.claims = some modelName) :
    a.claims = some modelName ∨
      ∃ p, a = .checks p ∧ p.modelName = modelName ∧ modelName ∉ s.downloading := by
  cases h with
  | stays hsame hmarks =>
    rcases claims_cases hclaims with hmark | hpull
    · rw [hmarks] at hmark
      cases hmark
    · exact .inl (claims_of_pulls (hsame ▸ hpull))
  | passes ha hnot =>
    cases hclaims
    exact .inr ⟨_, ha, rfl, hnot⟩
  | marks ha =>
    cases hclaims
    exact .inl (by rw [ha]; rfl)
  | removes _ hnone hmarks =>
    rw [PullTask.claims, hmarks, hnone] at hclaims
    cases hclaims
  | hands | leaves => cases hclaims

theorem stable_inv (b : Build) :
    Tasks.Assertions.Stable .trivial (inv b) (program b) (orderly b) where
  symm hpair modelName hb ha := hpair modelName ha hb
  call _ _ hbegins := by
    cases hbegins
    exact ⟨trivial, nofun, nofun⟩
  callBeside _ _ _ hown hbegins := by
    cases hbegins
    exact ⟨hown.2, nofun⟩
  step {_ s a move} htaken := by
    have hmoves := step_moves htaken.eq
    refine ⟨trivial, ⟨fun _ => own_listed_of_moves hmoves htaken.own.2.listed, ?_⟩⟩
    intro p ending h
    rcases forecast_step htaken.eq with hsame | ⟨p', rfl, hnot, htask⟩
    · exact htaken.own.2.forecast p ending (hsame ▸ h)
    · have horderly : p'.Orderly b := htaken.allowed.resolve_left hnot
      rw [htask] at h
      cases h
      exact ⟨horderly, outcome_joined horderly.cleanlyCut⟩
  beside {_ s a other move} hbeside := by
    have hmoves := step_moves hbeside.eq
    have hpair := hbeside.pair.2
    have hlisted : ∀ m, other.pulls = some m → m ∈ move.shared.downloading := fun m hpulls =>
      listed_of_moves hmoves hpair hpulls (hbeside.ownOther.2.listed m hpulls)
    refine ⟨⟨hlisted, hbeside.ownOther.2.forecast⟩, fun modelName hclaims hother => ?_⟩
    rcases claims_of_moves hmoves hclaims with hclaimed | ⟨p, rfl, rfl, hnot⟩
    · exact hpair modelName hclaimed hother
    · rcases claims_cases hother with hmarks | hpulls
      · exact hbeside.allowedBeside.elim hnot fun hfree => hfree hmarks
      · exact hnot (hbeside.ownOther.2.listed _ hpulls)
  spawn {_ s a child move} htaken hspawned := by
    rcases step_moves htaken.eq with _ | _ | _ | _ | hpulls | _
    all_goals cases hspawned
    refine ⟨⟨fun modelName h => ?_, nofun⟩, nofun⟩
    cases h
    exact htaken.own.2.listed _ hpulls
  spawnBeside {_ s a other child move} hbeside hspawned := by
    rcases step_moves hbeside.eq with _ | _ | _ | _ | hpulls | _
    all_goals cases hspawned
    intro modelName h
    cases h
    exact hbeside.pair.2 _ (claims_of_pulls hpulls)

/-! ## Runs -/

/-- An orderly call ends without a panic and without a subtraction below zero. -/
theorem Own.sound {b : Build} {s : Shared} {a : PullTask} {p : Pull} {ending : Ending}
    (h : Own b s a) (hforecast : a.forecast b = some (p, ending)) : ending.Sound := by
  obtain ⟨horderly, rfl⟩ := h.forecast p ending hforecast
  exact outcome_joined horderly.cleanlyCut ▸ sound_outcome horderly.cleanlyCut horderly.neverFalls

/-- An orderly call leaves no mark behind. -/
theorem Own.not_leaves {b : Build} {s : Shared} {a : PullTask} {p : Pull} {ending : Ending}
    {shared : Shared} (h : Own b s a) (hstep : step b s a = some ⟨shared, .ended p ending, none⟩) :
    p.Answered ∧ ending.exit ≠ .panicked := by
  rcases forecast_step hstep with hsame | ⟨p', -, -, htask⟩
  · exact ⟨(h.forecast p ending hsame.symm).1.answered, (h.sound hsame.symm).2⟩
  · cases htask

/-- While no task pulls a model it is not marked. -/
theorem absent_pulls (b : Build) (modelName : String) :
    Tasks.Absent (inv b).Hold (program b) (orderly b) (fun a => a.pulls = some modelName)
      (fun s => modelName ∉ s.downloading) where
  free {a} hfree hpulls := by
    cases a <;> first | (cases hpulls; done) | cases hfree
  call _ _ hbegins _ hnot := by
    cases hbegins
    exact hnot
  stay {c t child env move} _ _ hstep _ hmoved hnot := by
    rcases step_moves hstep with _ | _ | _ | _ | _ | _
    · exact hnot
    · exact hnot
    · intro hmem
      rcases Finset.mem_insert.mp hmem with rfl | hmem
      · exact hmoved rfl
      · exact hnot hmem
    · exact fun hmem => hnot (Finset.mem_of_mem_erase hmem)
    · exact hnot
    · exact hnot
  leave {c t child env move} hinv _ hstep hpulls hmoved _ hspawned := by
    rcases step_moves hstep with hsame | ha | ha | ha | hpulls' | ⟨-, hwrong⟩
    · exact absurd (hsame.trans hpulls) hmoved
    · rw [ha] at hpulls
      cases hpulls
    · rw [ha] at hpulls
      cases hpulls
    · rw [hpulls] at ha
      cases ha
      exact Finset.notMem_erase _ _
    · rw [hpulls] at hpulls'
      exact absurd hpulls'.symm (hspawned _ rfl)
    · obtain ⟨hanswered, hexit⟩ := (hinv.own t).not_leaves hstep
      exact (hwrong.elim (fun hnot => hnot hanswered) hexit).elim

/-- **Pulls** end clean in every orderly run. -/
theorem clean_of_reaches {b : Build} {c : Tasks.Config Shared PullTask}
    (h : Tasks.Reaches (program b) (orderly b) initial c) : Clean b c := by
  have hinv : ∀ c, Tasks.Reaches (program b) (orderly b) initial c → (inv b).Hold c := by
    refine fun c hc => (stable_inv b).of_reaches (fun _ _ => Tasks.Assertions.hold_trivial) ?_ hc
    exact ⟨trivial, fun _ => ⟨nofun, nofun⟩, fun _ _ _ => nofun⟩
  have hown := (hinv c h).own
  refine ⟨fun t u modelName htu ht hu => ?_, fun modelName hmem => ?_,
    fun t progress hprogress => ?_, fun t p ending ht => ?_⟩
  · exact (hinv c h).pair t u htu modelName (claims_of_pulls ht) (claims_of_pulls hu)
  · by_contra hnone
    exact (absent_pulls b modelName).of_reaches hinv (fun _ => Finset.notMem_empty _) h
      (not_exists.mp hnone) hmem
  · obtain ⟨p, ending, hforecast, hkept⟩ := forecast_of_progress (b := b) hprogress
    exact hkept ((hown t).sound hforecast).1
  · exact ((hown t).forecast p ending (by rw [ht]; rfl)).2

/-! ### Runs of some calls -/

instance (b : Build) (p : Pull) : Decidable (p.Orderly b) :=
  match p with
  | ⟨_, _, .fails _⟩ => .isFalse fun h => h.answered
  | ⟨_, _, .answers a⟩ =>
    decidable_of_iff ((a.status.isSuccess = true →
        ∀ chunk ∈ a.chunks.dropLast, Utf8.waits chunk = false) ∧
      (a.status.isSuccess = true → (b.percents a.lines).Pairwise (· ≤ ·)))
      ⟨fun h => ⟨trivial, h.1, h.2⟩, fun h => ⟨h.cleanlyCut, h.neverFalls⟩⟩

instance (b : Build) (p : Pull) (s : Shared) : Decidable ((orderly b).call p s) :=
  inferInstanceAs (Decidable True)

instance (b : Build) (p : Pull) (a : PullTask) : Decidable ((orderly b).callBeside p a) :=
  inferInstanceAs (Decidable True)

instance (b : Build) (env : Unit) (s : Shared) : ∀ a, Decidable ((orderly b).step env s a)
  | .checks p => inferInstanceAs (Decidable (p.modelName ∈ s.downloading ∨ p.Orderly b))
  | .free | .inserts _ | .sends _ | .refuses _ _ | .reads _ _ _ _ | .stops _ _ _ | .completes _ _
  | .removes _ | .removed | .rejected _ _ | .ended _ _ => inferInstanceAs (Decidable True)

instance (b : Build) (env : Unit) (s : Shared) (other : PullTask) :
    ∀ a, Decidable ((orderly b).stepBeside env s a other)
  | .checks p => inferInstanceAs
      (Decidable (p.modelName ∈ s.downloading ∨ other.marks ≠ some p.modelName))
  | .free | .inserts _ | .sends _ | .refuses _ _ | .reads _ _ _ _ | .stops _ _ _ | .completes _ _
  | .removes _ | .removed | .rejected _ _ | .ended _ _ => inferInstanceAs (Decidable True)

/-- An object as it is written in a line. -/
def objectLine (entries : String) : List Char := '{' :: entries.toList ++ ['}']

/-- What a status says of a layer. -/
def layer (completed total : UInt64) : Json.Value :=
  .object [("completed", .number (.posInt completed)), ("total", .number (.posInt total))]

/-- Some lines with what they say. -/
def statusLines : List (List Char × Json.Value) :=
  [(objectLine "\"completed\":50,\"total\":200", layer 50 200),
    (objectLine "\"completed\":150,\"total\":200", layer 150 200),
    (objectLine "\"completed\":10,\"total\":200", layer 10 200),
    (objectLine "\"error\":\"é\"", .object [("error", .string "é")]),
    (objectLine "\"error\":\"\uFFFD\uFFFD\"", .object [("error", .string "\uFFFD\uFFFD")])]

/-- A build that reads these lines. -/
def buildWith (overflowChecks : Bool) : Build :=
  ⟨overflowChecks, fun line => statusLines.lookup line⟩

/-- A pull the server answers with a stream. -/
def pullOf (chunks : List (List UInt8)) : Pull :=
  ⟨"llama3", none, .answers ⟨⟨200, "200 OK"⟩, none, chunks, none⟩⟩

/-- A stream of lines. -/
def streamOf (lines : List String) : List UInt8 :=
  lines.flatMap fun line => Utf8.encode (objectLine line ++ ['\n'])

/-- A pull of one layer, cut within a line. -/
def oneLayer : Pull :=
  let stream := streamOf ["\"completed\":50,\"total\":200", "\"completed\":150,\"total\":200"]
  pullOf [stream.take 40, stream.drop 40]

/-- A pull of a model that the server cannot be reached for. -/
def unreachable : Pull := ⟨"llama3", none, .fails .connect⟩

/-- A pull of two layers, the second of which starts over. -/
def twoLayers : Pull :=
  pullOf [streamOf ["\"completed\":150,\"total\":200", "\"completed\":10,\"total\":200"]]

/-- A pull that fails with a message, cut within its last letter. -/
def cutLetter : Pull :=
  let stream := streamOf ["\"error\":\"é\""]
  pullOf [stream.take 11, stream.drop 11]

/-- A task takes a number of steps. -/
def takes (t n : ℕ) : List (Tasks.Label Unit Pull) := List.replicate n (.run t () 3)

/-- A pull, and another one of the same model that comes while it runs. -/
def twice : List (Tasks.Label Unit Pull) :=
  .call 0 oneLayer :: takes 0 2 ++ .call 1 oneLayer :: takes 1 1 ++ takes 0 5

/-- Two pulls of one model that both look for it before one of them has marked it. -/
def together : List (Tasks.Label Unit Pull) :=
  .call 0 oneLayer :: .call 1 oneLayer :: (takes 0 1 ++ takes 1 1 ++ takes 0 1 ++ takes 1 1)

/-- A pull by itself. -/
def alone (p : Pull) (n : ℕ) : List (Tasks.Label Unit Pull) := .call 0 p :: takes 0 n

theorem stepBeside_free {b : Build} {env : Unit} {s : Shared} (a : PullTask) :
    (orderly b).stepBeside env s a .free := by
  cases a <;> first | trivial | exact .inr nofun

/-- A pull of one layer that is reported in two steps, with a second one refused beside it. -/
theorem clean_twice : ∃ c, Clean (buildWith true) c ∧
    ((c.tasks 0).progress.map fun progress => progress.emitted.map PullEvent.name) =
      some ["ollama-model-download-progress", "ollama-model-download-progress",
        "ollama-model-download-complete"] := by
  have hany : (Tasks.Program.runBelow (program (buildWith true)) (orderly (buildWith true)) 4
      initial twice).any (fun c => decide
        (((c.tasks 0).progress.map fun progress => progress.emitted.map PullEvent.name) =
          some ["ollama-model-download-progress", "ollama-model-download-progress",
            "ollama-model-download-complete"])) = true := by decide +kernel
  obtain ⟨c, -, hreach, hevents⟩ := Tasks.Reaches.exists_of_runBelow (fun _ => trivial)
    (fun _ _ a => stepBeside_free a) (fun _ _ => rfl) hany
  exact ⟨c, clean_of_reaches hreach, of_decide_eq_true hevents⟩

/-- What the error events of a call say. -/
def Ending.errors (e : Ending) : List (Option String) :=
  e.progress.emitted.map fun event =>
    (event.payload.get "error").bind Json.Value.deserializeString

/-- A run of the first four tasks that ends as it is checked to. -/
theorem exists_of_runBelow (b : Build) (labels : List (Tasks.Label Unit Pull))
    (check : Tasks.Config Shared PullTask → Bool)
    (h : (Tasks.Program.runBelow (program b) .free 4 initial labels).any check = true) :
    ∃ c, Tasks.Program.runBelow (program b) .free 4 initial labels = some c ∧
      Tasks.Reaches (program b) .free initial c ∧ check c = true :=
  Tasks.Reaches.exists_of_runBelow (fun _ => trivial) (fun _ _ _ => trivial) (fun _ _ => rfl) h

/-- A run of a pull whose percentage falls. -/
theorem exists_underflow (overflowChecks : Bool)
    (h : (Tasks.Program.runBelow (program (buildWith overflowChecks)) .free 4 initial
      (alone twoLayers 4)).any (fun c => (c.tasks 0).progress.any Progress.underflowed) = true) :
    ∃ c, Tasks.Reaches (program (buildWith overflowChecks)) .free initial c ∧
      (c.tasks 0).progress.any Progress.underflowed = true ∧
      ¬Clean (buildWith overflowChecks) c := by
  obtain ⟨c, -, hreach, hunder⟩ := exists_of_runBelow _ _ _ h
  refine ⟨c, hreach, hunder, fun hclean => ?_⟩
  obtain ⟨progress, hprogress, hunder⟩ := (Option.any_eq_true _ _).mp hunder
  rw [hclean.noUnderflow 0 progress hprogress] at hunder
  cases hunder

/-- In general they do not: two pulls of one model run beside each other, a refused connection
leaves its mark behind, a percentage that falls is subtracted, in either build, and a letter that is
cut in two changes what is emitted. -/
theorem not_clean_of_disorder :
    (∃ c, Tasks.Reaches (program (buildWith false)) .free initial c ∧
      (c.tasks 0).pulls = some "llama3" ∧ (c.tasks 1).pulls = some "llama3" ∧
      ¬Clean (buildWith false) c) ∧
    (∃ c, Tasks.Reaches (program (buildWith false)) .free initial c ∧
      "llama3" ∈ c.shared.downloading ∧ (∀ t, (c.tasks t).pulls = none) ∧
      ¬Clean (buildWith false) c) ∧
    (∃ c, Tasks.Reaches (program (buildWith true)) .free initial c ∧
      ((c.tasks 0).progress.any Progress.underflowed) = true ∧ ¬Clean (buildWith true) c) ∧
    (∃ c, Tasks.Reaches (program (buildWith false)) .free initial c ∧
      ((c.tasks 0).progress.any Progress.underflowed) = true ∧ ¬Clean (buildWith false) c) ∧
    ∃ c p ending, Tasks.Reaches (program (buildWith false)) .free initial c ∧
      c.tasks 0 = .ended p ending ∧
      ending.errors ≠ (p.joined.outcome (buildWith false)).errors ∧
      ¬Clean (buildWith false) c := by
  refine ⟨?_, ?_, ?_, ?_, ?_⟩
  · obtain ⟨c, -, hreach, hcheck⟩ := exists_of_runBelow (buildWith false) together
      (fun c => decide ((c.tasks 0).pulls = some "llama3" ∧ (c.tasks 1).pulls = some "llama3"))
      (by decide +kernel)
    obtain ⟨hfirst, hsecond⟩ := of_decide_eq_true hcheck
    exact ⟨c, hreach, hfirst, hsecond, fun h => h.one 0 1 "llama3" (by decide) hfirst hsecond⟩
  · obtain ⟨c, hrun, hreach, hcheck⟩ := exists_of_runBelow (buildWith false) (alone unreachable 3)
      (fun c => decide ("llama3" ∈ c.shared.downloading) &&
        decide (∀ t : ℕ, t < 4 → (c.tasks t).pulls = none))
      (by decide +kernel)
    obtain ⟨hmem, hnone⟩ : "llama3" ∈ c.shared.downloading ∧ ∀ t < 4, (c.tasks t).pulls = none := by
      simpa using hcheck
    have hidle : ∀ t, (c.tasks t).pulls = none :=
      Tasks.Program.forall_of_runBelow (P := fun a => a.pulls = none) hrun (fun _ _ => rfl) hnone
    refine ⟨c, hreach, hmem, hidle, fun h => ?_⟩
    obtain ⟨t, ht⟩ := h.listed "llama3" hmem
    rw [hidle t] at ht
    cases ht
  · exact exists_underflow true (by decide +kernel)
  · exact exists_underflow false (by decide +kernel)
  · obtain ⟨c, -, hreach, hcheck⟩ := exists_of_runBelow (buildWith false) (alone cutLetter 6)
      (fun c => match c.tasks 0 with
        | .ended p ending => decide (ending.errors ≠ (p.joined.outcome (buildWith false)).errors)
        | _ => false) (by decide +kernel)
    split at hcheck
    · next p ending hended =>
      have herrors := of_decide_eq_true hcheck
      refine ⟨c, p, ending, hreach, hended, herrors, fun h => herrors ?_⟩
      rw [← h.uncut 0 p ending hended]
    · cases hcheck

end Ollama

end MeetilyLocal
