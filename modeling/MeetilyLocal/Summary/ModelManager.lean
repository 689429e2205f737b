import MeetilyLocal.Utils.DownloadGuard

/-!
# Downloading a summary model

The embedding of `ModelManager::download_model_detailed` (`summary_engine/model_manager.rs`) with
the parts of `download_file` that it goes through. The file system, the network and the validation
of the file answer from outside. Whenever the call awaits, others may run: a `cancel_download` has
three steps, each under a lock of its own, and `delete_model` resets the status as well.

A call that gets past `begin` holds the model's slot: its name is active in the guard and its status
is that of a download. Every exit behind the download releases both (`released_conclude`); the two
exits before it that go through `?`, for the directory and for the HTTP client, release neither, and
only a cancellation that came in the meantime does (`released_downloadModelDetailed_iff`).

What is downloaded, speeds and messages to the user are left out.
-/

namespace MeetilyLocal

namespace SummaryEngine

/-- Model status in the system. -/
inductive ModelStatus : Type where
  /-- not yet downloaded -/
  | notDownloaded : ModelStatus
  /-- being downloaded, with the percentage -/
  | downloading : ℕ → ModelStatus
  /-- ready to use -/
  | available : ModelStatus
  /-- corrupted: the size of the file and the least size that was expected -/
  | corrupted : ℕ → ℕ → ModelStatus
  /-- an error occurred -/
  | error : String → ModelStatus
  deriving DecidableEq

/-- What the manager knows of a model. -/
structure ModelInfo : Type where
  /-- current status -/
  status : ModelStatus
  /-- file path -/
  path : String

/-- What the catalog says of a model. -/
structure ModelDef : Type where
  /-- filename on disk -/
  ggufFile : String
  /-- file size in MB -/
  sizeMb : ℕ

/-- The least size in MB, ten percent below the expected one. -/
def ModelDef.expectedMin (model : ModelDef) : ℕ := model.sizeMb * 9 / 10

/-- The greatest size in MB, ten percent above the expected one. -/
def ModelDef.expectedMax (model : ModelDef) : ℕ := model.sizeMb * 11 / 10

/-- `ModelManager` -/
structure ModelManager : Type where
  /-- `available_models` -/
  availableModels : String → Option ModelInfo
  /-- `download_guard` -/
  downloadGuard : DownloadGuard

/-- What others do while a call awaits. -/
inductive OtherStep : Type where
  /-- `request_cancel` sets the flag -/
  | setCancel : String → OtherStep
  /-- `request_cancel` takes the name out of the active set -/
  | removeActive : String → OtherStep
  /-- `cancel_download` or `delete_model` resets the status -/
  | resetStatus : String → OtherStep
  deriving DecidableEq

namespace ModelManager

/-- Change what is known of a model, if it is known. -/
def updateInfo (m : ModelManager) (name : String) (f : ModelInfo → ModelInfo) : ModelManager :=
  { m with
    availableModels := Function.update m.availableModels name ((m.availableModels name).map f) }

/-- Set the status of a model. -/
def setStatus (m : ModelManager) (name : String) (status : ModelStatus) : ModelManager :=
  m.updateInfo name fun info => { info with status }

@[simp]
theorem updateInfo_self (m : ModelManager) (name : String) (f : ModelInfo → ModelInfo) :
    (m.updateInfo name f).availableModels name = (m.availableModels name).map f :=
  Function.update_self _ _ _

theorem updateInfo_of_ne (m : ModelManager) {name other : String} (h : name ≠ other)
    (f : ModelInfo → ModelInfo) :
    (m.updateInfo other f).availableModels name = m.availableModels name :=
  Function.update_of_ne h _ _

/-- `download_guard.finish` -/
def finish (m : ModelManager) (name : String) : ModelManager :=
  { m with downloadGuard := m.downloadGuard.finish name }

/-- A step of others. -/
def other (m : ModelManager) : OtherStep → ModelManager
  | .setCancel name => { m with downloadGuard := m.downloadGuard.setCancel name }
  | .removeActive name => m.finish name
  | .resetStatus name => m.setStatus name .notDownloaded

end ModelManager

/-- A call of `download_model_detailed` between two awaits. -/
structure Call : Type where
  /-- the manager -/
  manager : ModelManager
  /-- how often it has awaited -/
  awaits : ℕ

/-- What others do at each await of a call. -/
abbrev Others : Type := ℕ → List OtherStep

namespace Call

/-- The call awaits. -/
def await (c : Call) (others : Others) : Call :=
  ⟨(others c.awaits).foldl ModelManager.other c.manager, c.awaits + 1⟩

/-- The call changes the manager. -/
def update (c : Call) (f : ModelManager → ModelManager) : Call :=
  { c with manager := f c.manager }

/-- `on_progress` with a percentage, if it is called and the lock on the models is free -/
def report (c : Call) (name : String) (progress : Option ℕ) : Call :=
  match progress with
  | some percent => c.update (·.setStatus name (.downloading percent))
  | none => c

end Call

/-- What happens when the loop of `download_file` waits for the next chunk. -/
inductive Round : Type where
  /-- a chunk is written, and the progress may be reported -/
  | chunk : Option ℕ → Round
  /-- the stream, its timeout or the file fails -/
  | fails : String → Round

/-- What the network and the file answer to `download_file`. -/
structure Transfer : Type where
  /-- the request is answered and the file opened; the first report -/
  opened : Except String (Option ℕ)
  /-- the chunks until the stream ends -/
  rounds : List Round
  /-- the file is flushed and its size checked; the last report -/
  finished : Except String (Option ℕ)

/-- What the outside answers to a call. -/
structure DownloadAnswers : Type where
  /-- the file that exists, and its size if it can be read -/
  metadata : Option (Option ℕ)
  /-- the models directory exists -/
  dirExists : Bool
  /-- `create_dir_all` -/
  createDir : Except String Unit
  /-- building the HTTP client -/
  client : Except String Unit
  /-- what `download_file` meets -/
  transfer : Transfer
  /-- `validate_gguf_file` -/
  validated : Except String Unit

/-- How `download_file` fails. -/
inductive DownloadError : Type where
  /-- `DownloadCancelled` -/
  | cancelled : DownloadError
  /-- anything else -/
  | other : String → DownloadError

/-- `Display` -/
def DownloadError.toString : DownloadError → String
  | .cancelled => "Download cancelled by user"
  | .other message => message

variable (others : Others) (name : String)

/-- The loop of `download_file`, and what follows it. -/
def downloadLoop (finished : Except String (Option ℕ)) :
    Call → List Round → Except DownloadError Unit × Call
  | c, [] =>
    let c := c.await others
    if c.manager.downloadGuard.isCancelRequested name then (.error .cancelled, c.await others)
    else
      match finished with
      | .ok progress => (.ok (), (c.await others).report name progress)
      | .error message => (.error (.other message), c.await others)
  | c, round :: rounds =>
    let c := c.await others
    if c.manager.downloadGuard.isCancelRequested name then (.error .cancelled, c.await others)
    else
      match round with
      | .chunk progress => downloadLoop finished ((c.await others).report name progress) rounds
      | .fails message => (.error (.other message), c.await others)

/-- `download_file` -/
def downloadFile (transfer : Transfer) (c : Call) : Except DownloadError Unit × Call :=
  match transfer.opened with
  | .ok progress =>
    downloadLoop others name transfer.finished ((c.await others).report name progress)
      transfer.rounds
  | .error message => (.error (.other message), c.await others)

/-- What `download_model_detailed` does when `download_file` has returned. -/
def conclude (model : ModelDef) (validated : Except String Unit)
    (downloaded : Except DownloadError Unit × Call) : Except String Unit × ModelManager :=
  match downloaded with
  | (.ok (), c) =>
    let c := c.await others
    match validated with
    | .error message =>
      let c := (c.await others).update
        (·.setStatus name (.error ("Validation failed: " ++ message)))
      let c := (c.await others).update (·.finish name)
      (.error ("File validation failed: " ++ message), c.manager)
    | .ok () =>
      let c := (c.await others).update
        (·.updateInfo name fun info => { info with status := .available, path := model.ggufFile })
      let c := (c.await others).update (·.finish name)
      (.ok (), c.manager)
  | (.error error, c) =>
    let c := (c.await others).update (·.finish name)
    match error with
    | .cancelled =>
      let c := (c.await others).update (·.setStatus name .notDownloaded)
      (.error ("CANCELLED: " ++ error.toString), c.manager)
    | .other message =>
      let c := (c.await others).update (·.setStatus name (.error message))
      (.error message, c.manager)

/-- The directory, the client and the download. -/
def fetch (model : ModelDef) (answers : DownloadAnswers) (c : Call) :
    Except String Unit × ModelManager :=
  let c := if answers.dirExists then c else c.await others
  match answers.dirExists, answers.createDir with
  | false, .error message => (.error message, c.manager)
  | _, _ =>
    match answers.client with
    | .error message => (.error ("Failed to create HTTP client: " ++ message), c.manager)
    | .ok () => conclude others name model answers.validated
        (downloadFile others name answers.transfer c)

/-- The look at the file that may exist: one of the right size is kept, one that is too large is
removed (which may fail), and one that is too small is resumed. -/
def keepOrFetch (model : ModelDef) (answers : DownloadAnswers) (c : Call) :
    Except String Unit × ModelManager :=
  match answers.metadata with
  | none => fetch others name model answers c
  | some none => fetch others name model answers (c.await others)
  | some (some size) =>
    let c := c.await others
    let fileSizeMb := size / (1024 * 1024)
    if model.expectedMin ≤ fileSizeMb ∧ fileSizeMb ≤ model.expectedMax then
      let c := (c.await others).update (·.setStatus name .available)
      let c := (c.await others).update (·.finish name)
      (.ok (), c.manager)
    else if model.expectedMax < fileSizeMb then fetch others name model answers (c.await others)
    else fetch others name model answers c

/-- `download_model_detailed` behind the first half of `begin` -/
def downloadBegun (model : ModelDef) (answers : DownloadAnswers) (c : Call) :
    Except String Unit × ModelManager :=
  let c := (c.await others).update fun m => { m with downloadGuard := m.downloadGuard.clearCancel }
  let c := (c.await others).update (·.setStatus name (.downloading 0))
  keepOrFetch others name model answers c

/-- `download_model_detailed` -/
def downloadModelDetailed (catalog : String → Option ModelDef) (answers : DownloadAnswers)
    (m : ModelManager) : Except String Unit × ModelManager :=
  match catalog name with
  | none => (.error ("Unknown model: " ++ name), m)
  | some model =>
    match m.downloadGuard.insertActive name with
    | none => (.error "Download already in progress", m)
    | some guard =>
      downloadBegun others name model answers ⟨{ m with downloadGuard := guard }, 0⟩

/-! ## What is released -/

/-- The status of a model is not that of a download. -/
def Idle (m : ModelManager) : Prop :=
  ∀ info, m.availableModels name = some info → ∀ percent, info.status ≠ .downloading percent

/-- The name is not active, and the status is not that of a download. -/
structure Released (m : ModelManager) : Prop where
  /-- the guard lets another call begin -/
  inactive : name ∉ m.downloadGuard.active
  /-- the status is not that of a download -/
  idle : Idle name m

variable {others name} {m : ModelManager} {c : Call}

theorem idle_updateInfo {f : ModelInfo → ModelInfo}
    (h : ∀ info percent, (f info).status ≠ .downloading percent) :
    Idle name (m.updateInfo name f) := by
  intro info hinfo percent
  rw [ModelManager.updateInfo_self] at hinfo
  obtain ⟨before, -, rfl⟩ := Option.map_eq_some_iff.mp hinfo
  exact h before percent

/-- Others only make a model idle. -/
theorem idle_other_iff (step : OtherStep) :
    Idle name (m.other step) ↔ Idle name m ∨ step = .resetStatus name := by
  cases step with
  | setCancel other => simp [ModelManager.other, Idle]
  | removeActive other => simp [ModelManager.other, ModelManager.finish, Idle]
  | resetStatus other =>
    rcases eq_or_ne other name with rfl | hne
    · exact iff_of_true (idle_updateInfo fun _ _ => nofun) (.inr rfl)
    · have hsame : (m.setStatus other .notDownloaded).availableModels name =
          m.availableModels name := m.updateInfo_of_ne hne.symm _
      simp [ModelManager.other, Idle, hsame, hne]

theorem idle_others_iff (steps : List OtherStep) :
    Idle name (steps.foldl ModelManager.other m) ↔
      Idle name m ∨ .resetStatus name ∈ steps := by
  induction steps generalizing m with
  | nil => simp
  | cons step steps ih =>
    rw [List.foldl_cons, ih, idle_other_iff, List.mem_cons, or_assoc, eq_comm]

/-- Others only take a name out of the active set. -/
theorem mem_active_other_iff (step : OtherStep) :
    name ∈ (m.other step).downloadGuard.active ↔
      name ∈ m.downloadGuard.active ∧ step ≠ .removeActive name := by
  cases step with
  | setCancel other => simp [ModelManager.other, DownloadGuard.setCancel]
  | removeActive other =>
    simp [ModelManager.other, ModelManager.finish, DownloadGuard.finish, and_comm, eq_comm]
  | resetStatus other =>
    simp [ModelManager.other, ModelManager.setStatus, ModelManager.updateInfo]

theorem mem_active_others_iff (steps : List OtherStep) :
    name ∈ (steps.foldl ModelManager.other m).downloadGuard.active ↔
      name ∈ m.downloadGuard.active ∧ .removeActive name ∉ steps := by
  induction steps generalizing m with
  | nil => simp
  | cons step steps ih =>
    rw [List.foldl_cons, ih, mem_active_other_iff, List.mem_cons, not_or, and_assoc]
    exact and_congr_right fun _ => and_congr_left' ne_comm

theorem Idle.await (h : Idle name c.manager) : Idle name (c.await others).manager :=
  (idle_others_iff _).mpr (.inl h)

theorem inactive_await (h : name ∉ c.manager.downloadGuard.active) :
    name ∉ (c.await others).manager.downloadGuard.active :=
  fun hmem => h ((mem_active_others_iff _).mp hmem).1

theorem inactive_finish (m : ModelManager) (name : String) :
    name ∉ (m.finish name).downloadGuard.active :=
  Finset.notMem_erase name m.downloadGuard.active

/-- A status is set, and later the name is released. -/
theorem released_of_status {f : ModelInfo → ModelInfo}
    (h : ∀ info percent, (f info).status ≠ .downloading percent) :
    Released name (((c.update (·.updateInfo name f)).await others).update (·.finish name)).manager
    where
  inactive := inactive_finish _ name
  idle := Idle.await (c := c.update (·.updateInfo name f)) (idle_updateInfo h)

/-- The name is released, and later a status is set. -/
theorem released_of_finish {f : ModelInfo → ModelInfo}
    (h : ∀ info percent, (f info).status ≠ .downloading percent) :
    Released name
      (((c.update (·.finish name)).await others).update (·.updateInfo name f)).manager where
  inactive := inactive_await (c := c.update (·.finish name)) (inactive_finish _ name)
  idle := idle_updateInfo h

/-- Every exit behind the download releases the slot. -/
theorem released_conclude (model : ModelDef) (validated : Except String Unit)
    (downloaded : Except DownloadError Unit × Call) :
    Released name (conclude others name model validated downloaded).2 := by
  obtain ⟨error | ⟨⟨⟩⟩, c⟩ := downloaded
  · cases error with
    | cancelled => exact released_of_finish fun _ _ => nofun
    | other message => exact released_of_finish fun _ _ => nofun
  · rcases validated with message | ⟨⟨⟩⟩
    · exact released_of_status fun _ _ => nofun
    · exact released_of_status fun _ _ => nofun

/-! ### The exits before the download -/

/-- A model is cancelled while a call awaits for the first `n` times: its name is removed, and if
it is known its status is reset after the call has set it. -/
def CancelledMeanwhile (others : Others) (name : String) (known : Bool) (n : ℕ) : Prop :=
  (∃ k < n, .removeActive name ∈ others k) ∧
    (known = true → ∃ k, 2 ≤ k ∧ k < n ∧ .resetStatus name ∈ others k)

/-- A call that holds the slot of a model, as far as others have left it. -/
structure Holding (others : Others) (name : String) (known : Bool) (c : Call) : Prop where
  /-- it has begun and set the status -/
  awaits : 2 ≤ c.awaits
  /-- its name is active unless it was removed -/
  active : name ∈ c.manager.downloadGuard.active ↔
    ∀ k < c.awaits, .removeActive name ∉ others k
  /-- its status is that of a download unless it was reset -/
  idle : Idle name c.manager ↔
    known = false ∨ ∃ k, 2 ≤ k ∧ k < c.awaits ∧ .resetStatus name ∈ others k

variable {known : Bool}

theorem Holding.await (h : Holding others name known c) :
    Holding others name known (c.await others) where
  awaits := h.awaits.trans (Nat.le_succ _)
  active := by
    show name ∈ (((others c.awaits).foldl ModelManager.other c.manager).downloadGuard.active) ↔
      ∀ k < c.awaits + 1, _
    rw [mem_active_others_iff, h.active, Nat.forall_lt_succ_right]
  idle := by
    show Idle name ((others c.awaits).foldl ModelManager.other c.manager) ↔
      _ ∨ ∃ k, 2 ≤ k ∧ k < c.awaits + 1 ∧ _
    rw [idle_others_iff, h.idle, or_assoc]
    refine or_congr_right ⟨?_, ?_⟩
    · rintro (⟨k, hk, hlt, hmem⟩ | hmem)
      · exact ⟨k, hk, hlt.trans (Nat.lt_succ_self _), hmem⟩
      · exact ⟨c.awaits, h.awaits, Nat.lt_succ_self _, hmem⟩
    · rintro ⟨k, hk, hlt, hmem⟩
      rcases Nat.lt_succ_iff_lt_or_eq.mp hlt with hlt' | rfl
      · exact .inl ⟨k, hk, hlt', hmem⟩
      · exact .inr hmem

/-- What an exit that releases nothing leaves behind. -/
theorem Holding.released_iff (h : Holding others name known c) :
    Released name c.manager ↔ CancelledMeanwhile others name known c.awaits := by
  have hremoved : name ∉ c.manager.downloadGuard.active ↔
      ∃ k < c.awaits, .removeActive name ∈ others k := by
    rw [h.active]
    simp
  have hreset : Idle name c.manager ↔
      (known = true → ∃ k, 2 ≤ k ∧ k < c.awaits ∧ .resetStatus name ∈ others k) := by
    rw [h.idle]
    cases known <;> simp
  rw [CancelledMeanwhile, ← hremoved, ← hreset]
  exact ⟨fun hreleased => ⟨hreleased.inactive, hreleased.idle⟩,
    fun hreleased => ⟨hreleased.1, hreleased.2⟩⟩

/-- Others neither add nor drop models. -/
theorem isSome_others (steps : List OtherStep) :
    ((steps.foldl ModelManager.other m).availableModels name).isSome =
      (m.availableModels name).isSome := by
  induction steps generalizing m with
  | nil => rfl
  | cons step steps ih =>
    rw [List.foldl_cons, ih]
    cases step with
    | setCancel other => rfl
    | removeActive other => rfl
    | resetStatus other =>
      rcases eq_or_ne name other with rfl | hne
      · simp [ModelManager.other, ModelManager.setStatus]
      · exact congrArg Option.isSome (m.updateInfo_of_ne hne _)

/-- A model that is known is being downloaded once the status is set. -/
theorem idle_downloading_iff :
    Idle name (m.setStatus name (.downloading 0)) ↔ (m.availableModels name).isSome = false := by
  rw [Idle, ModelManager.setStatus, ModelManager.updateInfo_self]
  rcases hinfo : m.availableModels name with _ | info
  · simp
  · refine iff_of_false (fun h => h _ rfl 0 rfl) (by simp)

/-- The call has begun and set the status. -/
theorem holding_begun {guard : DownloadGuard} (hguard : name ∈ guard.active) :
    Holding others name (m.availableModels name).isSome
      (((((⟨{ m with downloadGuard := guard }, 0⟩ : Call).await others).update fun m =>
        { m with downloadGuard := m.downloadGuard.clearCancel }).await others).update
          (·.setStatus name (.downloading 0))) where
  awaits := le_rfl
  active := by
    show name ∈ ((others 1).foldl ModelManager.other _).downloadGuard.active ↔ ∀ k < 2, _
    rw [mem_active_others_iff]
    show name ∈ ((others 0).foldl ModelManager.other _).downloadGuard.active ∧ _ ↔ _
    rw [mem_active_others_iff, and_iff_right (show name ∈ _ from hguard),
      Nat.forall_lt_succ_right, Nat.forall_lt_succ_right]
    exact and_congr_left' ⟨fun h => ⟨nofun, h⟩, And.right⟩
  idle := by
    show Idle name (ModelManager.setStatus _ name (.downloading 0)) ↔
      _ ∨ ∃ k, 2 ≤ k ∧ k < 2 ∧ _
    rw [idle_downloading_iff, or_iff_left fun ⟨k, hk, hlt, _⟩ => by omega]
    show ((((others 1).foldl ModelManager.other _).availableModels name).isSome = false) ↔ _
    rw [isSome_others]
    show ((((others 0).foldl ModelManager.other _).availableModels name).isSome = false) ↔ _
    rw [isSome_others]

/-- The directory or the client fails. -/
def DownloadAnswers.FailsEarly (answers : DownloadAnswers) : Prop :=
  (answers.dirExists = false ∧ ∃ message, answers.createDir = .error message) ∨
    ∃ message, answers.client = .error message

/-- The file exists and has the right size. -/
def ModelDef.AlreadyValid (model : ModelDef) (answers : DownloadAnswers) : Prop :=
  ∃ size, answers.metadata = some (some size) ∧
    model.expectedMin ≤ size / (1024 * 1024) ∧ size / (1024 * 1024) ≤ model.expectedMax

/-- How often a call awaits before it asks for the client. -/
def awaitsBefore (model : ModelDef) (answers : DownloadAnswers) : ℕ :=
  (match answers.metadata with
    | none => 2
    | some none => 3
    | some (some size) => if model.expectedMax < size / (1024 * 1024) then 4 else 3) +
    if answers.dirExists then 0 else 1

theorem released_fetch_iff {model : ModelDef} {answers : DownloadAnswers}
    (h : Holding others name known c) :
    Released name (fetch others name model answers c).2 ↔ ¬answers.FailsEarly ∨
      CancelledMeanwhile others name known (c.awaits + if answers.dirExists then 0 else 1) := by
  obtain ⟨metadata, dirExists, createDir, client, transfer, validated⟩ := answers
  have hleft : Holding others name known (if dirExists then c else c.await others) := by
    cases dirExists
    · exact h.await
    · exact h
  have hawaits : (if dirExists then c else c.await others).awaits =
      c.awaits + if dirExists then 0 else 1 := by
    cases dirExists <;> rfl
  rw [← hawaits, ← hleft.released_iff]
  rcases client with message | ⟨⟨⟩⟩
  · -- the client fails, if not the directory before it
    have hfails : DownloadAnswers.FailsEarly
        ⟨metadata, dirExists, createDir, .error message, transfer, validated⟩ :=
      .inr ⟨message, rfl⟩
    rw [or_iff_right (not_not_intro hfails)]
    cases dirExists <;> rcases createDir with _ | ⟨⟨⟩⟩ <;> rfl
  · by_cases hdir : dirExists = false ∧ ∃ message, createDir = .error message
    · obtain ⟨rfl, message, rfl⟩ := hdir
      have hfails : DownloadAnswers.FailsEarly
          ⟨metadata, false, .error message, .ok (), transfer, validated⟩ :=
        .inl ⟨rfl, message, rfl⟩
      rw [or_iff_right (not_not_intro hfails)]
      rfl
    · have hgoes : ¬DownloadAnswers.FailsEarly
          ⟨metadata, dirExists, createDir, .ok (), transfer, validated⟩ := by
        rintro (hfails | ⟨message, hmessage⟩)
        · exact hdir hfails
        · cases hmessage
      refine iff_of_true ?_ (.inl hgoes)
      cases dirExists with
      | true => rcases createDir with _ | ⟨⟨⟩⟩ <;> exact released_conclude _ _ _
      | false =>
        rcases createDir with message | ⟨⟨⟩⟩
        · exact absurd ⟨rfl, message, rfl⟩ hdir
        · exact released_conclude _ _ _

theorem released_keepOrFetch_iff {model : ModelDef} {answers : DownloadAnswers}
    (h : Holding others name known c) (hbegun : c.awaits = 2) :
    Released name (keepOrFetch others name model answers c).2 ↔
      model.AlreadyValid answers ∨ ¬answers.FailsEarly ∨
        CancelledMeanwhile others name known (awaitsBefore model answers) := by
  have hinvalid : ∀ {c' : Call}, Holding others name known c' → ¬model.AlreadyValid answers →
      awaitsBefore model answers = c'.awaits + (if answers.dirExists then 0 else 1) →
      (Released name (fetch others name model answers c').2 ↔
        model.AlreadyValid answers ∨ ¬answers.FailsEarly ∨
          CancelledMeanwhile others name known (awaitsBefore model answers)) := by
    intro c' h' hnot hawaits
    rw [or_iff_right hnot, hawaits]
    exact released_fetch_iff h'
  rw [keepOrFetch]
  rcases hmetadata : answers.metadata with _ | _ | size
  · exact hinvalid h (by simp [ModelDef.AlreadyValid, hmetadata])
      (by simp [awaitsBefore, hmetadata, hbegun])
  · exact hinvalid h.await (by simp [ModelDef.AlreadyValid, hmetadata])
      (by simp [awaitsBefore, hmetadata, hbegun, Call.await])
  · have hvalid : model.AlreadyValid answers ↔ model.expectedMin ≤ size / (1024 * 1024) ∧
        size / (1024 * 1024) ≤ model.expectedMax := by
      simp [ModelDef.AlreadyValid, hmetadata]
    simp only
    split
    · next hsize =>
      exact iff_of_true (released_of_status fun _ _ => nofun) (.inl (hvalid.mpr hsize))
    · next hsize =>
      split
      · next hlarge =>
        exact hinvalid h.await.await (mt hvalid.mp hsize)
          (by simp [awaitsBefore, hmetadata, hbegun, Call.await, hlarge])
      · next hsmall =>
        exact hinvalid h.await (mt hvalid.mp hsize)
          (by simp [awaitsBefore, hmetadata, hbegun, Call.await, hsmall])

/-- **The slot is released.** For every call that gets past `begin`, whatever the outside answers
and whatever others do while it awaits: when it returns its name is not active and the status is
not that of a download exactly if the file was there already, or neither the directory nor the
client failed, or the model was cancelled in the meantime. -/
theorem released_downloadModelDetailed_iff {catalog : String → Option ModelDef} {model : ModelDef}
    {answers : DownloadAnswers} (hmodel : catalog name = some model)
    (hbegin : name ∉ m.downloadGuard.active) :
    Released name (downloadModelDetailed others name catalog answers m).2 ↔
      model.AlreadyValid answers ∨ ¬answers.FailsEarly ∨
        CancelledMeanwhile others name (m.availableModels name).isSome
          (awaitsBefore model answers) := by
  have hinsert : m.downloadGuard.insertActive name =
      some { m.downloadGuard with active := insert name m.downloadGuard.active } := if_neg hbegin
  have hactive : name ∈
      ({ m.downloadGuard with active := insert name m.downloadGuard.active } :
        DownloadGuard).active := Finset.mem_insert_self name _
  rw [downloadModelDetailed, hmodel]
  simp only [hinsert]
  exact released_keepOrFetch_iff (holding_begun hactive) rfl

/-! ### A directory that cannot be created -/

/-- The smallest model. -/
def gemma : String → Option ModelDef :=
  fun name => if name = "gemma3:1b" then some ⟨"gemma-3-1b-it-q4_0.gguf", 1019⟩ else none

/-- Nothing has been downloaded. -/
def fresh : ModelManager :=
  ⟨fun name =>
    if name = "gemma3:1b" then some ⟨.notDownloaded, "gemma-3-1b-it-q4_0.gguf"⟩ else none, .new⟩

/-- A download of two chunks. -/
def twoChunks : Transfer := ⟨.ok (some 0), [.chunk (some 50), .chunk none], .ok (some 100)⟩

/-- The download succeeds. -/
def succeeds : DownloadAnswers := ⟨none, false, .ok (), .ok (), twoChunks, .ok ()⟩

/-- The models directory cannot be created. -/
def denied : DownloadAnswers :=
  ⟨none, false, .error "Permission denied (os error 13)", .ok (), twoChunks, .ok ()⟩

/-- A download that succeeds. -/
theorem released_succeeds : Released "gemma3:1b"
    (downloadModelDetailed (fun _ => []) "gemma3:1b" gemma succeeds fresh).2 :=
  (released_downloadModelDetailed_iff rfl (by decide)).mpr
    (.inr (.inl (by simp [DownloadAnswers.FailsEarly, succeeds])))

/-- The model is still being downloaded when the call has failed. -/
theorem not_released_denied : ¬Released "gemma3:1b"
    (downloadModelDetailed (fun _ => []) "gemma3:1b" gemma denied fresh).2 := by
  intro h
  exact h.inactive (by decide)

end SummaryEngine

end MeetilyLocal
