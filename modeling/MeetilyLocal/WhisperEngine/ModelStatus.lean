import MeetilyLocal.WhisperEngine.WhisperModels

/-!
# The truth of the statuses

`discover_models` tells a file from its size and its header, which an unfinished one can have as
well; what it finds it stores when it has looked at all of them. `cancel_download` removes whatever
file is there after its delay, and `delete_model` resets the status after it has removed the file.
A run in which none of this meets a download at the wrong moment (`careful`) keeps the statuses
true (`truthful_of_reaches`).

What each call needs of the files is stated for the part that it plays at a point (`ModelRole`,
`Fits`); what a step does to the files and the map is read off the part once (`ModelStep`).
-/

namespace MeetilyLocal

namespace WhisperModels

open Downloads (Download)

/-! ## What the calls need -/

/-- The part of a call. -/
inductive ModelRole : Type where
  /-- it relies on nothing -/
  | quiet : ModelRole
  /-- it has found models, and some entries are left -/
  | finds : List ModelInfo → List CatalogEntry → ModelRole
  /-- it looks at a header as well -/
  | checks : List ModelInfo → CatalogEntry → List CatalogEntry → ModelRole
  /-- a download opens its file -/
  | opens : Download → ℕ → ℕ → Bool → ModelRole
  /-- it writes it -/
  | writes : Download → Writer → ModelRole
  /-- it has written all of it -/
  | flushed : Download → Writer → ModelRole
  /-- it has counted a wrong size -/
  | truncated : Download → ModelRole
  /-- it has finished its file -/
  | verified : Download → ModelRole
  /-- it has found its header wrong -/
  | invalid : Download → ModelRole
  /-- it has found its header right -/
  | validated : Download → ModelRole
  /-- a cancellation, with the number of downloads that had begun before -/
  | cancels : String → ℕ → ModelRole
  /-- a deletion, with the path of the file -/
  | deletes : String → String → ModelRole

namespace ModelRole

/-- The download whose file it has opened and not given up. -/
def holds : ModelRole → Option Download
  | writes d _ | flushed d _ | truncated d | verified d | invalid d | validated d => some d
  | _ => none

/-- The models it has found. -/
def found : ModelRole → List ModelInfo
  | finds models _ | checks models _ _ => models
  | _ => []

/-- The entries it has not dealt with. -/
def left : ModelRole → List CatalogEntry
  | finds _ rest => rest
  | checks _ entry rest => entry :: rest
  | _ => []

/-- The download whose model it is going to list. -/
def confirms : ModelRole → Option Download
  | validated d => some d
  | _ => none

/-- The model that it cancels, with the number of downloads that had begun before. -/
def cancelling : ModelRole → Option (String × ℕ)
  | cancels name before => some (name, before)
  | _ => none

/-- It is going to list a model as available. -/
def Lists (r : ModelRole) (name : String) : Prop :=
  (∃ info ∈ r.found, info.name = name ∧ info.status = .available) ∨ ∃ d ∈ r.confirms, d.name = name

end ModelRole

/-- The part of a download. -/
def DownloadPc.role (d : Download) : DownloadPc → ModelRole
  | .openFile existing total resuming => .opens d existing total resuming
  | .report w | .look w | .read w | .write w _ | .flush w | .flushEarly w _ => .writes d w
  | .checkSize w => .flushed d w
  | .removeTruncated => .truncated d
  | .reportEnd | .validate => .verified d
  | .removeInvalid => .invalid d
  | .setAvailable => .validated d
  | _ => .quiet

/-- The part of a call. -/
def ModelTask.role : ModelTask → ModelRole
  | .discover .snapshot => .finds [] whisperModelCatalog
  | .discover (.scan _ models rest) => .finds models rest
  | .discover (.checkMagic _ models entry _ rest) => .checks models entry rest
  | .download d pc => pc.role d
  | .cancel name before _ => .cancels name before
  | .delete name (.removeFile path) => .deletes name path
  | _ => .quiet

/-- The download that a call is. -/
def ModelTask.download? : ModelTask → Option Download
  | .download d _ => some d
  | _ => none

/-- A file that a download is writing: it is the last that opened it and the only one that wrote to
it since, and what it has counted is there or waits. -/
structure File.Written (file : File) (d : Download) (w : Writer) : Prop where
  /-- it has it open -/
  id : file.id = w.file
  /-- it opened it last -/
  owner : file.owner = some d.number
  /-- no other wrote to it -/
  mixed : file.mixed = false
  /-- it has not finished it -/
  finished : file.finished = false
  /-- what it has counted -/
  counted : file.bytes.size + w.pending.size = w.downloaded
  /-- it writes at the end -/
  position : w.position file = file.bytes.size

/-- There is a file, and a download finished it. -/
def Finished (file : Option File) : Prop := ∃ f ∈ file, f.finished = true

/-- What a call needs of the file of a model. -/
def FitsAt (file : Option File) (name : String) (r : ModelRole) : Prop :=
  (r.Lists name → Finished file) ∧
    match r with
    | .writes d w => d.name = name → ∀ f ∈ file, f.Written d w
    | .flushed d w => d.name = name → ∀ f ∈ file, f.Written d w ∧ w.pending.size = 0
    | .truncated d => d.name = name → ∀ f ∈ file, f.finished = false
    | .verified d => d.name = name → ∀ f ∈ file, f.finished = true
    | .cancels other before =>
      other = name → ∀ f ∈ file, f.finished = false ∧ ∀ number ∈ f.owner, number < before
    | _ => True

/-- What a call needs. -/
structure Fits (s : Shared) (r : ModelRole) : Prop where
  /-- of the file of each model -/
  file (name : String) : FitsAt (s.directory (filename name)) name r
  /-- the models it has found have their own files -/
  found : ∀ info ∈ r.found, info.path = filename info.name
  /-- the other models as well -/
  left : ∀ entry ∈ r.left, entry.filename = filename entry.name
  /-- a deletion removes the file of its model -/
  path (name path : String) : r = .deletes name path → path = filename name

/-- What holds of the map and the files. -/
structure Sound (s : Shared) : Prop where
  /-- each model has its own file -/
  path (name : String) : ∀ info ∈ s.availableModels name, info.path = filename name
  /-- a model that is available has a finished one -/
  available (name : String) : ∀ info ∈ s.availableModels name, info.status = .available →
    Finished (s.directory (filename name))
  /-- the downloads that opened a file have begun -/
  owner (path : String) : ∀ file ∈ s.directory path, ∀ number ∈ file.owner, number < s.begun
  /-- a cancellation removes neither finished nor later files -/
  cancelled : ∀ removed ∈ s.cancelled, removed.1.finished = false ∧
    ∀ number ∈ removed.1.owner, number < removed.2

/-- The assertions about the models. -/
def sound : Tasks.Assertions Shared ModelTask where
  shared := Sound
  own s a := (∀ d ∈ a.download?, d.number < s.begun) ∧ Fits s a.role
  pair a b := ∀ d ∈ a.role.holds, ∀ d' ∈ b.role.holds, d.name ≠ d'.name

/-! ## Runs that are careful -/

/-- A model is not listed as available. -/
def Unlisted (s : Shared) (name : String) : Prop :=
  ∀ info ∈ s.availableModels name, info.status ≠ .available

/-- What a step of a call requires of the state. -/
def CarefulStep (env : ModelEnv) (s : Shared) : ModelRole → Prop
  -- a header is right only where the file is finished
  | .checks _ entry _ => ∀ file ∈ s.directory entry.filename,
      validateModelFileMagic file.bytes = true → file.finished = true
  -- a file is opened while its model is not listed, and resumed as it was measured
  | .opens d existing _ resuming => env.ok = true → Unlisted s d.name ∧
      (resuming = true → ∀ file ∈ s.directory (filename d.name), file.bytes.size = existing)
  -- a file is removed while its model is not listed
  | .invalid d => env.ok = true → Unlisted s d.name
  | .deletes name _ => env.ok = true → Unlisted s name
  | _ => True

/-- What it requires of the other calls. -/
def CarefulBeside (env : ModelEnv) (other : ModelRole) : ModelRole → Prop
  -- a file is opened while no other download has it open, no cancellation of an earlier download
  -- is in progress and the model is not about to be listed
  | .opens d _ _ _ => env.ok = true → (∀ d' ∈ other.holds, d'.name ≠ d.name) ∧
      (∀ cancelled ∈ other.cancelling, cancelled.1 = d.name → d.number < cancelled.2) ∧
      ¬other.Lists d.name
  -- a file is removed while its model is not about to be listed
  | .invalid d => env.ok = true → ¬other.Lists d.name
  | .deletes name _ => env.ok = true → ¬other.Lists name
  -- a download does not pass the check of the size while it is being cancelled
  | .flushed d w => (0 < w.totalSize ∧ w.downloaded ≠ w.totalSize) ∨
      ∀ cancelled ∈ other.cancelling, cancelled.1 ≠ d.name
  | _ => True

/-- A download of a finished file is not cancelled, and the steps are careful. -/
def careful : Tasks.Discipline Shared ModelTask ModelEnv ModelCall where
  call k s :=
    match k with
    | .cancel name => ∀ file ∈ s.directory (filename name), file.finished = false
    | _ => True
  callBeside _ _ := True
  step env s a := CarefulStep env s a.role
  stepBeside env _ a b := CarefulBeside env b.role a.role

/-! ## What a step changes -/

/-- The models that are available were so before, and nothing else changes that matters. -/
structure Relists (s s' : Shared) : Prop where
  /-- the files are as before -/
  directory : s'.directory = s.directory
  /-- nothing was cancelled -/
  cancelled : s'.cancelled = s.cancelled
  /-- downloads may have begun -/
  begun : s.begun ≤ s'.begun
  /-- a model that is available was available -/
  models (name : String) : ∀ info' ∈ s'.availableModels name, ∃ info ∈ s.availableModels name,
    info'.path = info.path ∧ (info'.status = .available → info.status = .available)

/-- How a part can change where no file does. -/
inductive Turn (s : Shared) : ModelRole → ModelRole → Prop where
  /-- not at all -/
  | stays {r : ModelRole} : Turn s r r
  /-- it ends -/
  | rests {r : ModelRole} : Turn s r .quiet
  /-- a download is about to open its file -/
  | opens {d : Download} {existing total : ℕ} {resuming : Bool} :
      Turn s .quiet (.opens d existing total resuming)
  /-- it has received a chunk -/
  | receives {d : Download} {w : Writer} {chunk : Bytes} :
      Turn s (.writes d w) (.writes d ((w.receive chunk).count chunk))
  /-- it has counted a wrong size -/
  | rejects {d : Download} {w : Writer} : Turn s (.flushed d w) (.truncated d)
  /-- it has found its header wrong -/
  | condemns {d : Download} : Turn s (.verified d) (.invalid d)
  /-- it has found its header right -/
  | validates {d : Download} : (s.directory (filename d.name)).isSome →
      Turn s (.verified d) (.validated d)
  /-- a deletion has found the model -/
  | looksUp {name : String} {info : ModelInfo} : info ∈ s.availableModels name →
      Turn s .quiet (.deletes name info.path)
  /-- a model was found that is not available -/
  | dismisses {models : List ModelInfo} {entry : CatalogEntry} {rest : List CatalogEntry}
      {r : ModelRole} {status : ModelStatus} :
      r = .finds models (entry :: rest) ∨ r = .checks models entry rest → status ≠ .available →
      Turn s r (.finds (models ++ [entry.found status]) rest)
  /-- a file is large enough -/
  | weighs {models : List ModelInfo} {entry : CatalogEntry} {rest : List CatalogEntry} :
      Turn s (.finds models (entry :: rest)) (.checks models entry rest)
  /-- and has a right header -/
  | accepts {models : List ModelInfo} {entry : CatalogEntry} {rest : List CatalogEntry}
      {file : File} : s.directory entry.filename = some file →
      validateModelFileMagic file.bytes = true →
      Turn s (.checks models entry rest) (.finds (models ++ [entry.found .available]) rest)

/-- What a step can do to the files and the map, by the part of the call that takes it. -/
inductive ModelStep (env : ModelEnv) (s : Shared) : ModelRole → Shared → ModelRole → Prop where
  /-- no file changes -/
  | turns {r r' : ModelRole} {s' : Shared} : Relists s s' → Turn s r r' → ModelStep env s r s' r'
  /-- a download opens its file -/
  | opens {d : Download} {existing total : ℕ} {resuming : Bool} {s' : Shared} {w : Writer} :
      env.ok = true → openFile s d existing total resuming = some (s', w) →
      ModelStep env s (.opens d existing total resuming) s' (.writes d w)
  /-- bytes reach the file -/
  | lands {d : Download} {w : Writer} {n : ℕ} :
      ModelStep env s (.writes d w) (s.land d w n) (.writes d (w.land n))
  /-- all that wait do -/
  | drains {d : Download} {w : Writer} :
      ModelStep env s (.writes d w) (s.land d w w.pending.size) (.flushed d (w.land w.pending.size))
  /-- some do, and the download gives up -/
  | abandons {d : Download} {w w' : Writer} {n : ℕ} : w'.file = w.file →
      ModelStep env s (.writes d w) (s.land d w' n) .quiet
  /-- the size is right -/
  | passes {d : Download} {w : Writer} : ¬(0 < w.totalSize ∧ w.downloaded ≠ w.totalSize) →
      ModelStep env s (.flushed d w)
        (s.updateOpen (filename d.name) w.file (·.pass d w.downloaded)) (.verified d)
  /-- a file of a wrong size is removed -/
  | removesTruncated {d : Download} :
      ModelStep env s (.truncated d) (s.setFile (filename d.name) none) .quiet
  /-- so is one with a wrong header -/
  | removesInvalid {d : Download} : env.ok = true →
      ModelStep env s (.invalid d) (s.setFile (filename d.name) none) .quiet
  /-- a model is listed -/
  | lists {d : Download} :
      ModelStep env s (.validated d)
        (s.updateInfo d.name fun info =>
          { info with status := .available, path := filename d.name }) .quiet
  /-- a cancellation removes a file -/
  | cancels {name : String} {before : ℕ} {file : File} :
      s.directory (filename name) = some file →
      ModelStep env s (.cancels name before)
        { s.setFile (filename name) none with cancelled := (file, before) :: s.cancelled } .quiet
  /-- so does a deletion -/
  | deletes {name path : String} : env.ok = true →
      ModelStep env s (.deletes name path) (s.setFile path none) .quiet
  /-- the models that were found are stored -/
  | stores {models : List ModelInfo} :
      ModelStep env s (.finds models []) (s.store models) .quiet

section Steps

variable {env : ModelEnv} {s s' : Shared} {name : String} {d : Download} {w : Writer}

theorem Relists.refl : Relists s s := ⟨rfl, rfl, le_rfl, fun _ info hinfo => ⟨info, hinfo, rfl, id⟩⟩

theorem mem_updateInfo {f : ModelInfo → ModelInfo} {other : String} {info' : ModelInfo}
    (h : info' ∈ (s.updateInfo name f).availableModels other) :
    (other = name ∧ ∃ info ∈ s.availableModels name, f info = info') ∨
      (other ≠ name ∧ info' ∈ s.availableModels other) := by
  rcases eq_or_ne other name with rfl | hne
  · refine .inl ⟨rfl, ?_⟩
    simpa [Shared.updateInfo] using h
  · refine .inr ⟨hne, ?_⟩
    simpa [Shared.updateInfo, hne] using h

/-- A status other than available is set. -/
theorem relists_setStatus {status : ModelStatus} (h : status ≠ .available) :
    Relists s (s.setStatus name status) := by
  refine ⟨rfl, rfl, le_rfl, fun other info' hinfo' => ?_⟩
  rcases mem_updateInfo hinfo' with ⟨rfl, info, hinfo, rfl⟩ | ⟨-, hinfo⟩
  · exact ⟨info, hinfo, rfl, fun hstatus => absurd hstatus h⟩
  · exact ⟨info', hinfo, rfl, id⟩

theorem relists_reportProgress {progress : Option ℕ} :
    Relists s (s.reportProgress name progress) := by
  cases progress with
  | none => exact .refl
  | some percent => exact relists_setStatus nofun

/-- The guard does not matter. -/
theorem relists_guard {guard : DownloadGuard} : Relists s { s with guard := guard } :=
  ⟨rfl, rfl, le_rfl, fun _ info hinfo => ⟨info, hinfo, rfl, id⟩⟩

theorem isSome_of_validates {ok : Bool} {path : String} (h : s.validates ok path = true) :
    ∃ file, s.directory path = some file ∧ validateModelFileMagic file.bytes = true := by
  rw [Shared.validates] at h
  rcases hfile : s.directory path with _ | file
  · rw [hfile] at h
    cases h
  · rw [hfile] at h
    exact ⟨file, rfl, (Bool.and_eq_true_iff.mp h).2⟩

/-- The part of the scan before the header never lists a model. -/
theorem ne_available_of_scanMetadata {sizeMb : ℕ} {progress metadata : Option ℕ}
    {status : ModelStatus} (h : scanMetadata sizeMb progress metadata = .inl status) :
    status ≠ .available := by
  rcases metadata with _ | size
  · cases h
    exact nofun
  · simp only [scanMetadata] at h
    split at h
    · cases h
    · split at h
      · rcases progress with _ | percent <;> cases h <;> exact nofun
      · cases h
        exact nofun

theorem modelStep_discover {pc : DiscoverPc} :
    ModelStep env s (ModelTask.discover pc).role (discoverStep env s pc).1
      (discoverStep env s pc).2.role := by
  cases pc with
  | snapshot => exact .turns .refl .stays
  | scan current models rest =>
    cases rest with
    | nil => exact .stores
    | cons entry rest =>
      rw [discoverStep]
      split
      · next status hscan =>
        exact .turns .refl (.dismisses (.inl rfl) (ne_available_of_scanMetadata hscan))
      · exact .turns .refl .weighs
  | checkMagic current models entry size rest =>
    rw [discoverStep]
    rcases hvalid : s.validates env.ok entry.filename with _ | _
    · exact .turns .refl (.dismisses (.inr rfl) nofun)
    · obtain ⟨file, hfile, hmagic⟩ := isSome_of_validates hvalid
      exact .turns .refl (.accepts hfile hmagic)

theorem modelStep_download {pc : DownloadPc} :
    ModelStep env s (ModelTask.download d pc).role (downloadStep env s d pc).1
      (downloadStep env s d pc).2.role := by
  cases pc with
  | clearCancel => exact .turns relists_guard .stays
  | pickUrl => cases hurl : hasModelUrl d.name <;> simp only [downloadStep, hurl] <;>
      exact .turns .refl .stays
  | createDir => cases hok : env.ok <;> simp only [downloadStep, hok] <;>
      exact .turns .refl .stays
  | setDownloading => exact .turns (relists_setStatus nofun) .stays
  | measure => exact .turns .refl .stays
  | request existing =>
    cases hresponse : env.response <;> simp only [downloadStep, hresponse]
    · exact .turns .refl .stays
    · exact .turns .refl .opens
    · exact .turns .refl .opens
    · exact .turns .refl .stays
  | openFile existing total resuming =>
    rw [downloadStep]
    rcases hok : env.ok with _ | _
    · exact .turns .refl .rests
    · rcases hopen : openFile s d existing total resuming with _ | ⟨s', w⟩
      · exact .turns .refl .rests
      · exact .opens hok hopen
  | report w => exact .turns relists_reportProgress .stays
  | look w =>
    rw [downloadStep]
    cases s.guard.isCancelRequested d.name <;> exact .turns .refl .stays
  | read w =>
    cases hitem : env.item <;> simp only [downloadStep, hitem]
    · exact .lands
    · exact .turns .refl .stays
    · exact .turns .refl .stays
    · exact .turns .refl .stays
  | write w chunk =>
    rcases hok : env.ok with _ | _ <;> simp only [downloadStep, hok]
    · exact .abandons rfl
    · exact .turns .refl .receives
  | flush w =>
    rcases hok : env.ok with _ | _ <;> simp only [downloadStep, hok]
    · exact .abandons rfl
    · exact .drains
  | flushEarly w requested => exact .abandons rfl
  | checkSize w =>
    rw [downloadStep]
    split
    · exact .turns .refl .rejects
    · next hsize => exact .passes hsize
  | removeTruncated =>
    rcases hok : env.ok with _ | _ <;> simp only [downloadStep, hok]
    · exact .turns .refl .rests
    · exact .removesTruncated
  | reportEnd => exact .turns relists_reportProgress .stays
  | validate =>
    rw [downloadStep]
    rcases hvalid : s.validates env.ok (filename d.name) with _ | _
    · exact .turns .refl .condemns
    · obtain ⟨file, hfile, -⟩ := isSome_of_validates hvalid
      exact .turns .refl (.validates (hfile ▸ rfl))
  | removeInvalid =>
    rcases hok : env.ok with _ | _ <;> simp only [downloadStep, hok]
    · exact .turns .refl .rests
    · exact .removesInvalid hok
  | markInvalid => exact .turns (relists_setStatus nofun) .stays
  | setAvailable => exact .lists
  | finish resets => cases resets <;> exact .turns relists_guard .stays

theorem modelStep_cancel {before : ℕ} {pc : CancelPc} :
    ModelStep env s (ModelTask.cancel name before pc).role (cancelStep env s name before pc).1
      (cancelStep env s name before pc).2.role := by
  cases pc with
  | setCancel => exact .turns relists_guard .stays
  | removeActive => exact .turns relists_guard .stays
  | resetStatus => exact .turns (relists_setStatus nofun) .stays
  | removeFile =>
    rw [cancelStep]
    rcases hok : env.ok with _ | _
    · exact .turns .refl .rests
    · rcases hfile : s.directory (filename name) with _ | file
      · exact .turns .refl .rests
      · exact .cancels hfile

theorem modelStep_delete {pc : DeletePc} :
    ModelStep env s (ModelTask.delete name pc).role (deleteStep env s name pc).1
      (deleteStep env s name pc).2.role := by
  cases pc with
  | lookUp =>
    rw [deleteStep]
    rcases hinfo : s.availableModels name with _ | info
    · exact .turns .refl .stays
    · cases hstatus : info.status <;> simp only [hstatus]
      · exact .turns .refl (.looksUp hinfo)
      · exact .turns .refl .stays
      · exact .turns .refl .stays
      · exact .turns .refl .stays
      · exact .turns .refl (.looksUp hinfo)
  | removeFile path =>
    rw [deleteStep]
    split
    · rcases hok : env.ok with _ | _
      · exact .turns .refl .rests
      · exact .deletes hok
    · exact .turns .refl .rests

/-- What a step changes. -/
theorem modelStep_of_step {a : ModelTask} {move : Tasks.Move Shared ModelTask}
    (h : step env s a = some move) : ModelStep env s a.role move.shared move.task.role := by
  cases a with
  | free => cases h
  | finished => cases h
  | discover pc =>
    cases h
    exact modelStep_discover
  | insertActive name =>
    rw [step, step.stepAlone] at h
    rcases hinsert : s.guard.insertActive name with _ | guard <;> rw [hinsert] at h
    · cases h
      exact .turns .refl .stays
    · cases h
      refine .turns ⟨rfl, rfl, Nat.le_succ _, fun _ info hinfo => ?_⟩ .stays
      exact ⟨info, hinfo, rfl, id⟩
  | download d pc =>
    cases h
    exact modelStep_download
  | cancel name before pc =>
    cases h
    exact modelStep_cancel
  | delete name pc =>
    cases h
    exact modelStep_delete
  | resetStatus name =>
    cases h
    exact .turns (relists_setStatus nofun) .stays

end Steps

/-! ## Files of different models -/

theorem filename_injective : Function.Injective filename := by
  intro name other h
  have hlists := congrArg String.toList h
  simp only [filename, String.toList_append] at hlists
  exact String.toList_inj.mp (List.append_cancel_left (List.append_cancel_right hlists))

/-- The files of the catalog are the ones that are downloaded. -/
theorem filename_catalog : ∀ entry ∈ whisperModelCatalog,
    entry.filename = filename entry.name := by
  decide +kernel

section Files

variable {env : ModelEnv} {s s' : Shared} {name other path : String} {d : Download} {w : Writer}
  {file : Option File} {f : File} {r : ModelRole}

theorem setFile_filename_of_ne (h : other ≠ name) :
    (s.setFile (filename name) file).directory (filename other) = s.directory (filename other) :=
  Function.update_of_ne (fun heq => h (filename_injective heq)) _ _

theorem setFile_filename_self :
    (s.setFile (filename name) file).directory (filename name) = file :=
  Function.update_self _ _ _

/-- The open file of a download is changed, if it is there. -/
theorem updateOpen_cases {id : ℕ} {g : File → File} (h : ∀ f ∈ s.directory path, f.id = id) :
    (s.directory path = none ∧ s.updateOpen path id g = s) ∨
      ∃ f, s.directory path = some f ∧ s.updateOpen path id g = s.setFile path (some (g f)) := by
  rcases hfile : s.directory path with _ | f
  · exact .inl ⟨rfl, by simp [Shared.updateOpen, hfile]⟩
  · have hid : f.id = id := h f hfile
    exact .inr ⟨f, rfl, by simp [Shared.updateOpen, hfile, hid]⟩

/-- The file that a download has opened. -/
theorem openFile_cases {existing total : ℕ} {resuming : Bool}
    (h : openFile s d existing total resuming = some (s', w)) :
    ∃ f next, s' = { s.setFile (filename d.name) (some f) with nextFile := next } ∧
      f.id = w.file ∧ f.owner = some d.number ∧ f.mixed = false ∧ f.finished = false ∧
      w.pending.size = 0 ∧ w.position f = f.bytes.size ∧
      ((resuming = true → ∀ old ∈ s.directory (filename d.name), old.bytes.size = existing) →
        f.bytes.size = w.downloaded) := by
  rw [openFile] at h
  rcases resuming with _ | _
  · simp only [Bool.false_eq_true, if_false] at h
    rcases hfile : s.directory (filename d.name) with _ | old <;> rw [hfile] at h <;> cases h <;>
      exact ⟨_, _, rfl, rfl, rfl, rfl, rfl, rfl, rfl, fun _ => rfl⟩
  · obtain ⟨old, hold, hopened⟩ := Option.map_eq_some_iff.mp h
    cases hopened
    exact ⟨_, _, rfl, rfl, rfl, rfl, rfl, rfl, rfl, fun hsize => hsize rfl old hold⟩

/-! ### Bytes that land -/

theorem write_owner {offset : ℕ} {new : Bytes} : (f.write d offset new).owner = f.owner := by
  rw [File.write]
  split <;> rfl

/-- Writing does not finish a file. -/
theorem write_finished {offset : ℕ} {new : Bytes} (h : f.finished = false) :
    (f.write d offset new).finished = false := by
  rw [File.write]
  split
  · exact h
  · rfl

/-- What a download has counted is there or waits. -/
theorem File.Written.land (h : f.Written d w) (n : ℕ) :
    (f.write d (w.position f) (w.pending.take n)).Written d (w.land n) := by
  have hcounted := h.counted
  have hposition := h.position
  rw [File.write]
  split
  · next hnone =>
    have hmin : min n w.pending.size = 0 := hnone
    refine ⟨h.id, h.owner, h.mixed, h.finished, ?_, ?_⟩
    · show f.bytes.size + (w.pending.size - n) = w.downloaded
      omega
    · rw [Writer.position] at hposition ⊢
      simpa [Writer.land, hmin] using hposition
  · have hsize : (f.bytes.write (w.position f) (w.pending.take n)).size =
        f.bytes.size + min n w.pending.size := by
      rw [hposition]
      exact max_eq_right (Nat.le_add_right _ _)
    refine ⟨h.id, h.owner, ?_, rfl, ?_, ?_⟩
    · simp [h.mixed, h.owner]
    · show (f.bytes.write (w.position f) (w.pending.take n)).size + (w.pending.size - n) =
        w.downloaded
      omega
    · rw [Writer.position] at hposition ⊢
      show (if w.appends then (f.bytes.write (w.position f) (w.pending.take n)).size
        else w.offset + min n w.pending.size) = _
      split
      · rfl
      · next happends =>
        rw [if_neg happends] at hposition
        rw [hposition]
        exact hsize.symm

/-- A chunk that was received waits and is counted. -/
theorem File.Written.receive (h : f.Written d w) (chunk : Bytes) :
    f.Written d ((w.receive chunk).count chunk) := by
  have hcounted := h.counted
  refine ⟨h.id, h.owner, h.mixed, h.finished, ?_, h.position⟩
  show f.bytes.size + max w.pending.size (w.pending.size + chunk.size) = w.downloaded + chunk.size
  omega

/-- A file is finished when all that was counted is there. -/
theorem File.Written.pass (h : f.Written d w) (hpending : w.pending.size = 0) :
    (f.pass d w.downloaded).finished = true := by
  have hcounted := h.counted
  simp only [File.pass, h.owner, h.mixed, Bool.or_eq_true, Bool.and_eq_true, decide_eq_true_eq]
  exact .inr ⟨⟨trivial, rfl⟩, by omega⟩

/-! ### What the calls need of a file that has changed -/

/-- A file that is needed is finished. -/
theorem FitsAt.not_lists (h : FitsAt file name r) (hfile : ∀ f ∈ file, f.finished = false) :
    ¬r.Lists name := by
  intro hlists
  obtain ⟨f, hf, hfinished⟩ := h.1 hlists
  rw [hfile f hf] at hfinished
  cases hfinished

/-- A file that is not needed may be removed. -/
theorem fitsAt_none (h : ¬r.Lists name) : FitsAt none name r := by
  refine ⟨fun hlists => absurd hlists h, ?_⟩
  cases r <;> first | exact trivial | exact fun _ => nofun

/-- A call that has no file of the model open needs the file only if it lists or removes it. -/
theorem fitsAt_elsewhere {file : Option File} (hlists : r.Lists name → Finished file)
    (hholds : ∀ d ∈ r.holds, d.name ≠ name)
    (hcancels : ∀ before, r = .cancels name before → ∀ f ∈ file,
      f.finished = false ∧ ∀ number ∈ f.owner, number < before) : FitsAt file name r := by
  refine ⟨hlists, ?_⟩
  cases r with
  | writes d w => exact fun hname => absurd hname (hholds d rfl)
  | flushed d w => exact fun hname => absurd hname (hholds d rfl)
  | truncated d => exact fun hname => absurd hname (hholds d rfl)
  | verified d => exact fun hname => absurd hname (hholds d rfl)
  | cancels other before =>
    rintro rfl
    exact hcancels before rfl
  | quiet => exact trivial
  | finds models rest => exact trivial
  | checks models entry rest => exact trivial
  | opens d existing total resuming => exact trivial
  | invalid d => exact trivial
  | validated d => exact trivial
  | deletes other path => exact trivial

/-- A file that is not needed may be written by a download, unless another one has it open or a
cancellation takes it for an earlier one's. -/
theorem fitsAt_unfinished (hlists : ¬r.Lists name) (hholds : ∀ d ∈ r.holds, d.name ≠ name)
    (hcancels : ∀ before, r = .cancels name before → ∀ number ∈ f.owner, number < before)
    (hfinished : f.finished = false) : FitsAt (some f) name r := by
  refine fitsAt_elsewhere (fun h => absurd h hlists) hholds fun before hr f' hf' => ?_
  obtain rfl := Option.some.inj hf'
  exact ⟨hfinished, hcancels before hr⟩

/-- A file may be finished, unless another download has it open or a cancellation is going to
remove it. -/
theorem FitsAt.pass {n : ℕ} (h : FitsAt (some f) name r) (hholds : ∀ d ∈ r.holds, d.name ≠ name)
    (hcancels : ∀ before, r ≠ .cancels name before) : FitsAt (some (f.pass d n)) name r := by
  refine fitsAt_elsewhere (fun hlists => ?_) hholds fun before hr => absurd hr (hcancels before)
  obtain ⟨f', hf', hfinished⟩ := h.1 hlists
  obtain rfl := Option.some.inj hf'
  exact ⟨_, rfl, by simp [File.pass, hfinished]⟩

theorem not_lists (hfound : r.found = []) (hconfirms : r.confirms = none) : ¬r.Lists name := by
  rintro (⟨info, hinfo, -⟩ | ⟨d, hd, -⟩)
  · rw [hfound] at hinfo
    cases hinfo
  · rw [hconfirms] at hd
    cases hd

/-- A call that relies on nothing. -/
theorem fits_quiet : Fits s .quiet :=
  ⟨fun _ => ⟨fun h => absurd h (not_lists rfl rfl), trivial⟩, nofun, nofun, nofun⟩

theorem Fits.of_directory (h : Fits s r) (hdirectory : s'.directory = s.directory) : Fits s' r :=
  ⟨fun name => hdirectory ▸ h.file name, h.found, h.left, h.path⟩

/-- The file of one model has changed. -/
theorem Fits.setFile (h : Fits s r) (hfile : FitsAt file name r) :
    Fits (s.setFile (filename name) file) r := by
  refine ⟨fun other => ?_, h.found, h.left, h.path⟩
  rcases eq_or_ne other name with rfl | hne
  · rw [setFile_filename_self]
    exact hfile
  · rw [setFile_filename_of_ne hne]
    exact h.file other

/-! ### What the map needs of it -/

/-- A model whose file is unfinished is not listed. -/
theorem Sound.unlisted (h : Sound s) (hfile : ∀ f ∈ s.directory (filename name),
    f.finished = false) : Unlisted s name := by
  intro info hinfo hstatus
  obtain ⟨f, hf, hfinished⟩ := h.available name info hinfo hstatus
  rw [hfile f hf] at hfinished
  cases hfinished

theorem Sound.setFile (h : Sound s) (hfile : ¬Unlisted s name → Finished file)
    (howner : ∀ f ∈ file, ∀ number ∈ f.owner, number < s.begun) :
    Sound (s.setFile (filename name) file) := by
  refine ⟨h.path, fun other info hinfo hstatus => ?_, fun path f hf => ?_, h.cancelled⟩
  · rcases eq_or_ne other name with rfl | hne
    · rw [setFile_filename_self]
      exact hfile fun hunlisted => hunlisted info hinfo hstatus
    · rw [setFile_filename_of_ne hne]
      exact h.available other info hinfo hstatus
  · rcases eq_or_ne path (filename name) with rfl | hne
    · rw [setFile_filename_self] at hf
      exact howner f hf
    · have hsame : (s.setFile (filename name) file).directory path = s.directory path :=
        Function.update_of_ne hne _ _
      exact h.owner path f (hsame ▸ hf)

/-- The file of a model that is not listed is removed. -/
theorem Sound.remove (h : Sound s) (hunlisted : Unlisted s name) :
    Sound (s.setFile (filename name) none) :=
  h.setFile (absurd hunlisted) nofun

theorem Sound.relists (h : Sound s) (hrelists : Relists s s') : Sound s' := by
  refine ⟨fun name info' hinfo' => ?_, fun name info' hinfo' hstatus => ?_, fun path f hf => ?_, ?_⟩
  · obtain ⟨info, hinfo, hpath, -⟩ := hrelists.models name info' hinfo'
    exact hpath.trans (h.path name info hinfo)
  · obtain ⟨info, hinfo, -, havailable⟩ := hrelists.models name info' hinfo'
    rw [hrelists.directory]
    exact h.available name info hinfo (havailable hstatus)
  · rw [hrelists.directory] at hf
    exact fun number hnumber => (h.owner path f hf number hnumber).trans_le hrelists.begun
  · rw [hrelists.cancelled]
    exact h.cancelled

end Files

/-! ## What a step keeps -/

section Keeps

variable {env : ModelEnv} {s s' : Shared} {r r' other : ModelRole} {d : Download} {w w' : Writer}

/-- What bytes of a download do to its file, which is unfinished before and after. -/
theorem land_cases (hfile : ∀ f ∈ s.directory (filename d.name), f.Written d w)
    (hid : w'.file = w.file) (n : ℕ) :
    (s.directory (filename d.name) = none ∧ s.land d w' n = s) ∨
      ∃ f, s.directory (filename d.name) = some f ∧ f.Written d w ∧
        s.land d w' n = s.setFile (filename d.name)
          (some (f.write d (w'.position f) (w'.pending.take n))) := by
  have hopen : ∀ f ∈ s.directory (filename d.name), f.id = w'.file := fun f hf =>
    (hfile f hf).id.trans hid.symm
  rcases updateOpen_cases hopen with h | ⟨f, hf, hland⟩
  · exact .inl h
  · exact .inr ⟨f, hf, hfile f hf, hland⟩

/-- A download that has written all passes its file, if it is there. -/
theorem pass_cases
    (hfile : ∀ f ∈ s.directory (filename d.name), f.Written d w ∧ w.pending.size = 0) :
    (s.directory (filename d.name) = none ∧
      s.updateOpen (filename d.name) w.file (·.pass d w.downloaded) = s) ∨
      ∃ f, s.directory (filename d.name) = some f ∧ f.Written d w ∧ w.pending.size = 0 ∧
        s.updateOpen (filename d.name) w.file (·.pass d w.downloaded) =
          s.setFile (filename d.name) (some (f.pass d w.downloaded)) := by
  have hopen : ∀ f ∈ s.directory (filename d.name), f.id = w.file := fun f hf =>
    (hfile f hf).1.id
  rcases updateOpen_cases hopen with h | ⟨f, hf, hpass⟩
  · exact .inl h
  · exact .inr ⟨f, hf, (hfile f hf).1, (hfile f hf).2, hpass⟩

/-- The map stays sound when bytes land. -/
theorem Sound.land {n : ℕ} (h : Sound s)
    (hfile : ∀ f ∈ s.directory (filename d.name), f.Written d w) (hid : w'.file = w.file) :
    Sound (s.land d w' n) := by
  rcases land_cases hfile hid n with ⟨-, hland⟩ | ⟨f, hf, hwritten, hland⟩
  · rw [hland]
    exact h
  · rw [hland]
    refine h.setFile (fun hlisted => absurd (h.unlisted fun f hf => (hfile f hf).finished) hlisted)
      fun f' hf' => ?_
    obtain rfl := Option.some.inj hf'
    rw [write_owner]
    exact h.owner _ f hf

/-- The open file of a download stays its own when bytes land. -/
theorem written_land {n : ℕ} (hfile : ∀ f ∈ s.directory (filename d.name), f.Written d w) :
    ∀ f ∈ (s.land d w n).directory (filename d.name), f.Written d (w.land n) := by
  intro f' hf'
  rcases land_cases hfile rfl n with ⟨hnone, hland⟩ | ⟨f, -, hwritten, hland⟩
  · rw [hland, hnone] at hf'
    cases hf'
  · rw [hland, setFile_filename_self] at hf'
    obtain rfl := Option.some.inj hf'
    exact hwritten.land n

theorem mem_foldl_update {models : List ModelInfo} {known : String → Option ModelInfo}
    {name : String} {info : ModelInfo}
    (h : info ∈ models.foldl (fun (known : String → Option ModelInfo) info =>
      Function.update known info.name (some info)) known name) :
    info ∈ known name ∨ (info ∈ models ∧ info.name = name) := by
  induction models generalizing known with
  | nil => exact .inl h
  | cons first rest ih =>
    rcases ih h with hknown | ⟨hrest, hname⟩
    · rcases eq_or_ne name first.name with rfl | hne
      · simp only [Function.update_self] at hknown
        obtain rfl := Option.some.inj hknown
        exact .inr ⟨List.mem_cons_self, rfl⟩
      · simp only [Function.update_of_ne hne] at hknown
        exact .inl hknown
    · exact .inr ⟨List.mem_cons_of_mem _ hrest, hname⟩

/-- What is stored was found. -/
theorem mem_store {models : List ModelInfo} {name : String} {info : ModelInfo}
    (h : info ∈ (s.store models).availableModels name) : info ∈ models ∧ info.name = name :=
  (mem_foldl_update h).resolve_left nofun

/-- **The map.** A careful step keeps the map sound. -/
theorem sound_of_modelStep (h : ModelStep env s r s' r') (hallowed : CarefulStep env s r)
    (hsound : Sound s) (hfits : Fits s r)
    (hbegun : ∀ d existing total resuming, r = .opens d existing total resuming →
      d.number < s.begun) : Sound s' := by
  cases h with
  | turns hrelists => exact hsound.relists hrelists
  | @opens d existing total resuming s' w hok hopen =>
    obtain ⟨f, next, rfl, -, howner, -, hfinished, -⟩ := openFile_cases hopen
    have hunlisted := (hallowed hok).1
    have hset : Sound (s.setFile (filename d.name) (some f)) := by
      refine hsound.setFile (absurd hunlisted) fun f' hf' number hnumber => ?_
      obtain rfl := Option.some.inj hf'
      rw [howner] at hnumber
      obtain rfl := Option.some.inj hnumber
      exact hbegun d existing total resuming rfl
    exact ⟨hset.path, hset.available, hset.owner, hset.cancelled⟩
  | @lands d w n => exact hsound.land ((hfits.file d.name).2 rfl) rfl
  | @drains d w => exact hsound.land ((hfits.file d.name).2 rfl) rfl
  | @abandons d w w' n hid => exact hsound.land ((hfits.file d.name).2 rfl) hid
  | @passes d w hsize =>
    rcases pass_cases ((hfits.file d.name).2 rfl) with
      ⟨-, hpass⟩ | ⟨f, hf, hown, hpending, hpass⟩
    · rw [hpass]
      exact hsound
    · rw [hpass]
      refine hsound.setFile (fun _ => ⟨_, rfl, hown.pass hpending⟩) fun f' hf' => ?_
      obtain rfl := Option.some.inj hf'
      exact hsound.owner _ f hf
  | removesTruncated => exact hsound.remove (hsound.unlisted ((hfits.file _).2 rfl))
  | removesInvalid hok => exact hsound.remove (hallowed hok)
  | @lists d =>
    have hfinished := (hfits.file d.name).1 (.inr ⟨d, rfl, rfl⟩)
    refine ⟨fun name info hinfo => ?_, fun name info hinfo hstatus => ?_, hsound.owner,
      hsound.cancelled⟩
    · rcases mem_updateInfo hinfo with ⟨rfl, -, -, rfl⟩ | ⟨-, hold⟩
      · rfl
      · exact hsound.path name info hold
    · rcases mem_updateInfo hinfo with ⟨rfl, -, -, -⟩ | ⟨-, hold⟩
      · exact hfinished
      · exact hsound.available name info hold hstatus
  | @cancels name before file hfile =>
    have hearlier := (hfits.file name).2 rfl
    have hremoved := hsound.remove (hsound.unlisted fun f hf => (hearlier f hf).1)
    refine ⟨hremoved.path, hremoved.available, hremoved.owner, fun removed hmem => ?_⟩
    rcases List.mem_cons.mp hmem with rfl | hold
    · exact hearlier file hfile
    · exact hsound.cancelled removed hold
  | @deletes name path hok =>
    obtain rfl := hfits.path name path rfl
    exact hsound.remove (hallowed hok)
  | @stores models =>
    refine ⟨fun name info hinfo => ?_, fun name info hinfo hstatus => ?_, hsound.owner,
      hsound.cancelled⟩
    · obtain ⟨hmem, rfl⟩ := mem_store hinfo
      exact hfits.found info hmem
    · obtain ⟨hmem, hname⟩ := mem_store hinfo
      exact (hfits.file name).1 (.inl ⟨info, hmem, hname, hstatus⟩)

/-- A model that was found joins the others. -/
theorem Fits.find {models : List ModelInfo} {entry : CatalogEntry} {rest : List CatalogEntry}
    {status : ModelStatus}
    (h : Fits s (.finds models (entry :: rest)) ∨ Fits s (.checks models entry rest))
    (hstatus : status = .available → Finished (s.directory entry.filename)) :
    Fits s (.finds (models ++ [entry.found status]) rest) := by
  obtain ⟨hfile, hfound, hleft⟩ : (∀ name, (∃ info ∈ models, info.name = name ∧
      info.status = .available) → Finished (s.directory (filename name))) ∧
      (∀ info ∈ models, info.path = filename info.name) ∧
      ∀ entry' ∈ entry :: rest, entry'.filename = filename entry'.name := by
    rcases h with h | h
    · exact ⟨fun name hlists => (h.file name).1 (.inl hlists), h.found, h.left⟩
    · exact ⟨fun name hlists => (h.file name).1 (.inl hlists), h.found, h.left⟩
  have hentry := hleft entry List.mem_cons_self
  refine ⟨fun name => ⟨fun hlists => ?_, trivial⟩, fun info hinfo => ?_,
    fun entry' hentry' => hleft entry' (List.mem_cons_of_mem _ hentry'), nofun⟩
  · rcases hlists with ⟨info, hinfo, hname, havailable⟩ | ⟨d, hd, -⟩
    · rcases List.mem_append.mp hinfo with hold | hnew
      · exact hfile name ⟨info, hold, hname, havailable⟩
      · obtain rfl := List.mem_singleton.mp hnew
        obtain rfl := hname
        exact hentry ▸ hstatus havailable
    · cases hd
  · rcases List.mem_append.mp hinfo with hold | hnew
    · exact hfound info hold
    · obtain rfl := List.mem_singleton.mp hnew
      exact hentry

/-- What a step needs of the files it needs of its own file only. -/
theorem Fits.turn (hsound : Sound s) (h : Fits s r)
    (hallowed : CarefulStep env s r) (hturn : Turn s r r') : Fits s r' := by
  cases hturn with
  | stays => exact h
  | rests => exact fits_quiet
  | opens => exact ⟨fun _ => ⟨fun hlists => absurd hlists (not_lists rfl rfl), trivial⟩, nofun,
      nofun, nofun⟩
  | @receives d w chunk =>
    refine ⟨fun name => ⟨fun hlists => absurd hlists (not_lists rfl rfl), fun hname f hf => ?_⟩,
      nofun, nofun, nofun⟩
    exact ((h.file name).2 hname f hf).receive chunk
  | @rejects d w =>
    refine ⟨fun name => ⟨fun hlists => absurd hlists (not_lists rfl rfl), fun hname f hf => ?_⟩,
      nofun, nofun, nofun⟩
    exact ((h.file name).2 hname f hf).1.finished
  | condemns => exact ⟨fun _ => ⟨fun hlists => absurd hlists (not_lists rfl rfl), trivial⟩, nofun,
      nofun, nofun⟩
  | @validates d hsome =>
    refine ⟨fun name => ⟨fun hlists => ?_, trivial⟩, nofun, nofun, nofun⟩
    obtain ⟨d', hd', rfl⟩ := hlists.resolve_left fun ⟨_, hmem, _⟩ => by cases hmem
    obtain rfl := Option.some.inj hd'
    obtain ⟨f, hf⟩ := Option.isSome_iff_exists.mp hsome
    exact ⟨f, hf, (h.file d.name).2 rfl f hf⟩
  | @looksUp name info hinfo =>
    refine ⟨fun _ => ⟨fun hlists => absurd hlists (not_lists rfl rfl), trivial⟩, nofun, nofun,
      fun other path heq => ?_⟩
    cases heq
    exact hsound.path name info hinfo
  | @dismisses models entry rest r status hr hstatus =>
    rcases hr with rfl | rfl
    · exact .find (.inl h) fun havailable => absurd havailable hstatus
    · exact .find (.inr h) fun havailable => absurd havailable hstatus
  | @weighs models entry rest => exact ⟨h.file, h.found, h.left, nofun⟩
  | @accepts models entry rest file hfile hmagic =>
    exact .find (.inr h) fun _ => ⟨file, hfile, hallowed file hfile hmagic⟩

/-- **The call.** After a careful step a call has what it needs. -/
theorem fits_of_modelStep (h : ModelStep env s r s' r') (hallowed : CarefulStep env s r)
    (hsound : Sound s) (hfits : Fits s r) : Fits s' r' := by
  cases h with
  | turns hrelists hturn =>
    exact (hfits.turn hsound hallowed hturn).of_directory hrelists.directory
  | @opens d existing total resuming s' w hok hopen =>
    obtain ⟨f, next, rfl, hid, howner, hmixed, hfinished, hpending, hposition, hsize⟩ :=
      openFile_cases hopen
    have hcounted := hsize (hallowed hok).2
    refine Fits.of_directory (s := s.setFile (filename d.name) (some f)) ?_ rfl
    refine ⟨fun name => ⟨fun hlists => absurd hlists (not_lists rfl rfl), fun hname f' hf' => ?_⟩,
      nofun, nofun, nofun⟩
    obtain rfl := hname
    rw [setFile_filename_self] at hf'
    obtain rfl := Option.some.inj hf'
    exact ⟨hid, howner, hmixed, hfinished, by omega, hposition⟩
  | @lands d w n =>
    refine ⟨fun name => ⟨fun hlists => absurd hlists (not_lists rfl rfl), fun hname => ?_⟩,
      nofun, nofun, nofun⟩
    obtain rfl := hname
    exact written_land ((hfits.file d.name).2 rfl)
  | @drains d w =>
    refine ⟨fun name => ⟨fun hlists => absurd hlists (not_lists rfl rfl),
      fun hname f hf => ?_⟩, nofun, nofun, nofun⟩
    obtain rfl := hname
    exact ⟨written_land ((hfits.file d.name).2 rfl) f hf, Nat.sub_self _⟩
  | abandons => exact fits_quiet
  | @passes d w hsize =>
    refine ⟨fun name => ⟨fun hlists => absurd hlists (not_lists rfl rfl),
      fun hname f' hf' => ?_⟩, nofun, nofun, nofun⟩
    obtain rfl := hname
    rcases pass_cases ((hfits.file d.name).2 rfl) with
      ⟨hnone, hpass⟩ | ⟨f, -, hown, hpending, hpass⟩
    · rw [hpass, hnone] at hf'
      cases hf'
    · rw [hpass, setFile_filename_self] at hf'
      obtain rfl := Option.some.inj hf'
      exact hown.pass hpending
  | removesTruncated => exact fits_quiet
  | removesInvalid => exact fits_quiet
  | lists => exact fits_quiet
  | cancels => exact fits_quiet
  | deletes => exact fits_quiet
  | stores => exact fits_quiet

/-- A download holds the file it has opened. -/
theorem holds_of_modelStep (h : ModelStep env s r s' r') {d : Download} (hd : d ∈ r'.holds) :
    d ∈ r.holds ∨
      (env.ok = true ∧ ∃ existing total resuming, r = .opens d existing total resuming) := by
  cases h with
  | turns hrelists hturn =>
    cases hturn with
    | stays => exact .inl hd
    | receives => exact .inl hd
    | rejects => exact .inl hd
    | condemns => exact .inl hd
    | validates => exact .inl hd
    | rests => cases hd
    | opens => cases hd
    | looksUp => cases hd
    | dismisses => cases hd
    | weighs => cases hd
    | accepts => cases hd
  | @opens d' existing total resuming s' w hok hopen =>
    obtain rfl := Option.some.inj hd
    exact .inr ⟨hok, existing, total, resuming, rfl⟩
  | lands => exact .inl hd
  | drains => exact .inl hd
  | passes => exact .inl hd
  | abandons => cases hd
  | removesTruncated => cases hd
  | removesInvalid => cases hd
  | lists => cases hd
  | cancels => cases hd
  | deletes => cases hd
  | stores => cases hd

/-- **The other calls.** A careful step leaves to another call what it needs. -/
theorem fits_beside (h : ModelStep env s r s' r') (hallowed : CarefulStep env s r)
    (hbeside : CarefulBeside env other r) (hfits : Fits s r) (hother : Fits s other)
    (hapart : ∀ d ∈ r.holds, ∀ d' ∈ other.holds, d.name ≠ d'.name) : Fits s' other := by
  -- a file that the download has open is not finished, and no other one has it open
  have hland : ∀ {d : Download} {w w' : Writer} {n : ℕ}, (∀ f ∈ s.directory (filename d.name),
      f.Written d w) → w'.file = w.file → (∀ d' ∈ other.holds, d'.name ≠ d.name) →
      Fits (s.land d w' n) other := by
    intro d w w' n hfile hid hholds
    rcases land_cases hfile hid n with ⟨-, hland⟩ | ⟨f, hf, hwritten, hland⟩
    · rw [hland]
      exact hother
    · rw [hland]
      have hneeds := hother.file d.name
      refine hother.setFile (fitsAt_unfinished
        (hneeds.not_lists fun f hf => (hfile f hf).finished) hholds ?_
        (write_finished hwritten.finished))
      rintro before rfl number hnumber
      rw [write_owner] at hnumber
      exact (hneeds.2 rfl f hf).2 number hnumber
  -- a file that is not needed may be removed
  have hremove : ∀ {name : String}, ¬other.Lists name →
      Fits (s.setFile (filename name) none) other := fun hlists =>
    hother.setFile (fitsAt_none hlists)
  cases h with
  | turns hrelists => exact hother.of_directory hrelists.directory
  | @opens d existing total resuming s' w hok hopen =>
    obtain ⟨f, next, rfl, -, howner, -, hfinished, -⟩ := openFile_cases hopen
    obtain ⟨hholds, hcancels, hlists⟩ := hbeside hok
    refine Fits.of_directory (s := s.setFile (filename d.name) (some f)) ?_ rfl
    refine hother.setFile (fitsAt_unfinished hlists hholds ?_ hfinished)
    rintro before rfl number hnumber
    rw [howner] at hnumber
    obtain rfl := Option.some.inj hnumber
    exact hcancels _ rfl rfl
  | @lands d w n =>
    exact hland ((hfits.file d.name).2 rfl) rfl fun d' hd' => (hapart d rfl d' hd').symm
  | @drains d w =>
    exact hland ((hfits.file d.name).2 rfl) rfl fun d' hd' => (hapart d rfl d' hd').symm
  | @abandons d w w' n hid =>
    exact hland ((hfits.file d.name).2 rfl) hid fun d' hd' => (hapart d rfl d' hd').symm
  | @passes d w hsize =>
    rcases pass_cases ((hfits.file d.name).2 rfl) with ⟨-, hpass⟩ | ⟨f, hf, -, -, hpass⟩
    · rw [hpass]
      exact hother
    · rw [hpass]
      have hneeds := hother.file d.name
      rw [hf] at hneeds
      refine hother.setFile (hneeds.pass (fun d' hd' => (hapart d rfl d' hd').symm) ?_)
      rintro before rfl
      exact hbeside.resolve_left hsize _ rfl rfl
  | @removesTruncated d =>
    exact hremove ((hother.file d.name).not_lists ((hfits.file d.name).2 rfl))
  | removesInvalid hok => exact hremove (hbeside hok)
  | lists => exact hother.of_directory rfl
  | @cancels name before file hfile =>
    have hremoved := hremove ((hother.file name).not_lists fun f hf =>
      ((hfits.file name).2 rfl f hf).1)
    exact hremoved.of_directory rfl
  | @deletes name path hok =>
    obtain rfl := hfits.path name path rfl
    exact hremove (hbeside hok)
  | stores => exact hother.of_directory rfl

end Keeps

/-! ## Careful runs -/

section Runs

variable {env : ModelEnv} {s s' : Shared} {a b : ModelTask} {r r' : ModelRole}
  {move : Tasks.Move Shared ModelTask}

theorem begun_updateOpen {path : String} {id : ℕ} {g : File → File} :
    (s.updateOpen path id g).begun = s.begun := by
  rw [Shared.updateOpen]
  split
  · split <;> rfl
  · rfl

theorem begun_le_of_modelStep (h : ModelStep env s r s' r') : s.begun ≤ s'.begun := by
  cases h with
  | turns hrelists => exact hrelists.begun
  | opens hok hopen =>
    obtain ⟨f, next, rfl, -⟩ := openFile_cases hopen
    exact le_rfl
  | lands => exact begun_updateOpen.ge
  | drains => exact begun_updateOpen.ge
  | abandons => exact begun_updateOpen.ge
  | passes => exact begun_updateOpen.ge
  | removesTruncated => exact le_rfl
  | removesInvalid => exact le_rfl
  | lists => exact le_rfl
  | cancels => exact le_rfl
  | deletes => exact le_rfl
  | stores => exact le_rfl

/-- A download goes on as itself. -/
theorem download_downloadStep {d d' : Download} {pc : DownloadPc}
    (h : d' ∈ (downloadStep env s d pc).2.download?) : d' = d := by
  have hgoes : ∀ pc' : DownloadPc, d' ∈ (ModelTask.download d pc').download? → d' = d :=
    fun _ h => (Option.some.inj h).symm
  cases pc with
  | clearCancel => exact hgoes _ h
  | pickUrl => exact hgoes _ h
  | createDir =>
    cases hok : env.ok <;> rw [downloadStep, hok] at h
    · cases h
    · exact hgoes _ h
  | setDownloading => exact hgoes _ h
  | measure => exact hgoes _ h
  | request existing =>
    cases hresponse : env.response <;> simp only [downloadStep, hresponse] at h <;>
      exact hgoes _ h
  | openFile existing total resuming =>
    rw [downloadStep] at h
    split at h <;> exact hgoes _ h
  | report w => exact hgoes _ h
  | look w => exact hgoes _ h
  | read w => cases hitem : env.item <;> simp only [downloadStep, hitem] at h <;> exact hgoes _ h
  | write w chunk =>
    cases hok : env.ok <;> simp only [downloadStep, hok] at h <;> exact hgoes _ h
  | flush w => cases hok : env.ok <;> simp only [downloadStep, hok] at h <;> exact hgoes _ h
  | flushEarly w requested => exact hgoes _ h
  | checkSize w =>
    rw [downloadStep] at h
    split at h <;> exact hgoes _ h
  | removeTruncated => exact hgoes _ h
  | reportEnd => exact hgoes _ h
  | validate => exact hgoes _ h
  | removeInvalid => exact hgoes _ h
  | markInvalid => exact hgoes _ h
  | setAvailable => exact hgoes _ h
  | finish resets => cases resets <;> cases h

/-- The downloads have begun. -/
theorem begun_of_step (h : step env s a = some move)
    (hbegun : ∀ d ∈ a.download?, d.number < s.begun) :
    ∀ d ∈ move.task.download?, d.number < move.shared.begun := by
  intro d hd
  have hle := begun_le_of_modelStep (modelStep_of_step h)
  cases a with
  | free => cases h
  | finished => cases h
  | discover pc =>
    cases h
    cases pc with
    | snapshot => cases hd
    | scan current models rest =>
      cases rest with
      | nil => cases hd
      | cons entry rest =>
        rw [discoverStep] at hd
        split at hd <;> cases hd
    | checkMagic current models entry size rest => cases hd
  | insertActive name =>
    rw [step, step.stepAlone] at h
    rcases hinsert : s.guard.insertActive name with _ | guard <;> rw [hinsert] at h <;> cases h
    · cases hd
    · obtain rfl := Option.some.inj hd
      exact Nat.lt_succ_self _
  | download d' pc =>
    cases h
    obtain rfl := download_downloadStep hd
    exact (hbegun _ rfl).trans_le hle
  | cancel name before pc =>
    cases h
    cases pc with
    | removeFile =>
      rw [cancelStep] at hd
      split at hd <;> cases hd
    | _ => cases hd
  | delete name pc =>
    cases h
    cases pc with
    | lookUp =>
      rw [deleteStep] at hd
      split at hd
      · split at hd <;> cases hd
      · cases hd
    | removeFile path =>
      rw [deleteStep] at hd
      split at hd
      · split at hd <;> cases hd
      · cases hd
  | resetStatus name =>
    cases h
    cases hd

/-- Nothing is spawned. -/
theorem spawned_eq_none (h : step env s a = some move) : move.spawned = none := by
  obtain ⟨after, -, rfl⟩ := Option.map_eq_some_iff.mp h
  rfl

theorem begun_of_opens {d : Download} {existing total : ℕ} {resuming : Bool}
    (hbegun : ∀ d ∈ a.download?, d.number < s.begun)
    (ha : a.role = .opens d existing total resuming) : d.number < s.begun := by
  cases a with
  | download d' pc =>
    cases pc <;> cases ha
    exact hbegun _ rfl
  | discover pc => cases pc <;> cases ha
  | delete name pc => cases pc <;> cases ha
  | _ => cases ha

theorem fits_begun {k : ModelCall} (hallowed : careful.call k s) (hsound : Sound s)
    (hbegins : begins k s = some (s', a)) : s' = s ∧ a.download? = none ∧ Fits s a.role ∧
      a.role.holds = none := by
  cases k with
  | discover =>
    cases hbegins
    refine ⟨rfl, rfl, ⟨fun name => ⟨fun hlists => absurd hlists (not_lists rfl rfl), trivial⟩,
      nofun, filename_catalog, nofun⟩, rfl⟩
  | download name =>
    cases hbegins
    exact ⟨rfl, rfl, fits_quiet, rfl⟩
  | cancel name =>
    cases hbegins
    refine ⟨rfl, rfl, ⟨fun other => ⟨fun hlists => absurd hlists (not_lists rfl rfl), ?_⟩,
      nofun, nofun, nofun⟩, rfl⟩
    rintro rfl file hfile
    exact ⟨hallowed file hfile, hsound.owner _ file hfile⟩
  | delete name =>
    cases hbegins
    exact ⟨rfl, rfl, fits_quiet, rfl⟩

/-- Nothing is required of a call that relies on nothing. -/
theorem carefulBeside_quiet : CarefulBeside env .quiet r := by
  have hlists : ∀ name, ¬ModelRole.quiet.Lists name := fun _ => not_lists rfl rfl
  cases r with
  | opens d existing total resuming => exact fun _ => ⟨nofun, nofun, hlists _⟩
  | flushed d w => exact .inr nofun
  | invalid d => exact fun _ => hlists _
  | deletes name path => exact fun _ => hlists _
  | _ => exact trivial

theorem stable_sound : Tasks.Assertions.Stable .trivial sound program careful where
  symm hpair d hd d' hd' hname := hpair d' hd' d hd hname.symm
  call hallowed hshared hbegins := by
    obtain ⟨-, hsound⟩ := hshared
    obtain ⟨rfl, hnone, hfits, -⟩ := fits_begun hallowed hsound hbegins
    refine ⟨hsound, fun d hd => ?_, hfits⟩
    rw [hnone] at hd
    cases hd
  callBeside hallowed _ hshared hown hbegins := by
    obtain ⟨rfl, -, -, hholds⟩ := fits_begun hallowed hshared.2 hbegins
    refine ⟨hown.2, fun d hd => ?_⟩
    rw [hholds] at hd
    cases hd
  step htaken := by
    obtain ⟨hbegun, hfits⟩ := htaken.own.2
    have hstep := modelStep_of_step htaken.eq
    exact ⟨sound_of_modelStep hstep htaken.allowed htaken.shared.2 hfits fun _ _ _ _ =>
      begun_of_opens hbegun, begun_of_step htaken.eq hbegun,
      fits_of_modelStep hstep htaken.allowed htaken.shared.2 hfits⟩
  beside hbeside := by
    obtain ⟨-, hfits⟩ := hbeside.own.2
    obtain ⟨hbegun, hother⟩ := hbeside.ownOther.2
    have hstep := modelStep_of_step hbeside.eq
    refine ⟨⟨fun d hd => (hbegun d hd).trans_le (begun_le_of_modelStep hstep),
      fits_beside hstep hbeside.allowed hbeside.allowedBeside hfits hother hbeside.pair.2⟩,
      fun d hd d' hd' => ?_⟩
    rcases holds_of_modelStep hstep hd with hold | ⟨hok, existing, total, resuming, hopens⟩
    · exact hbeside.pair.2 d hold d' hd'
    · have hcareful : CarefulBeside _ _ _ := hbeside.allowedBeside
      rw [hopens] at hcareful
      exact ((hcareful hok).1 d' hd').symm
  spawn htaken hspawned := by
    rw [spawned_eq_none htaken.eq] at hspawned
    cases hspawned
  spawnBeside hbeside hspawned := by
    rw [spawned_eq_none hbeside.eq] at hspawned
    cases hspawned

/-- **The statuses.** In every run that is careful the statuses tell the truth, whatever files
earlier sessions have left. -/
theorem truthful_of_reaches {disk : String → Option (Bytes × Bool)}
    {c : Tasks.Config Shared ModelTask} (h : Tasks.Reaches program careful (start disk) c) :
    Truthful c.shared := by
  have hstart : sound.Hold (start disk) := by
    refine ⟨⟨nofun, nofun, fun path file hfile number hnumber => ?_, nofun⟩,
      fun _ => ⟨nofun, fits_quiet⟩, fun _ _ _ => nofun⟩
    obtain ⟨old, -, rfl⟩ := Option.map_eq_some_iff.mp hfile
    cases hnumber
  have hsound := (stable_sound.of_reaches (fun _ _ => Tasks.Assertions.hold_trivial) hstart h).shared
  refine ⟨fun name info hinfo hstatus => ?_, hsound.cancelled⟩
  rw [hsound.path name info hinfo]
  exact hsound.available name info hinfo hstatus

end Runs

/-! ## Runs of a download and those beside it -/

instance (r : ModelRole) (name : String) : Decidable (r.Lists name) :=
  inferInstanceAs (Decidable ((∃ info ∈ r.found, info.name = name ∧ info.status = .available) ∨
    ∃ d ∈ r.confirms, d.name = name))

instance (s : Shared) (name : String) : Decidable (Unlisted s name) :=
  inferInstanceAs (Decidable (∀ info ∈ s.availableModels name, info.status ≠ .available))

instance (env : ModelEnv) (s : Shared) : ∀ r, Decidable (CarefulStep env s r)
  | .checks _ entry _ => inferInstanceAs (Decidable (∀ file ∈ s.directory entry.filename,
      validateModelFileMagic file.bytes = true → file.finished = true))
  | .opens d existing _ resuming => inferInstanceAs (Decidable (env.ok = true →
      Unlisted s d.name ∧ (resuming = true →
        ∀ file ∈ s.directory (filename d.name), file.bytes.size = existing)))
  | .invalid d => inferInstanceAs (Decidable (env.ok = true → Unlisted s d.name))
  | .deletes name _ => inferInstanceAs (Decidable (env.ok = true → Unlisted s name))
  | .quiet => inferInstanceAs (Decidable True)
  | .finds _ _ => inferInstanceAs (Decidable True)
  | .writes _ _ => inferInstanceAs (Decidable True)
  | .flushed _ _ => inferInstanceAs (Decidable True)
  | .truncated _ => inferInstanceAs (Decidable True)
  | .verified _ => inferInstanceAs (Decidable True)
  | .validated _ => inferInstanceAs (Decidable True)
  | .cancels _ _ => inferInstanceAs (Decidable True)

instance (env : ModelEnv) (other : ModelRole) : ∀ r, Decidable (CarefulBeside env other r)
  | .opens d _ _ _ => inferInstanceAs (Decidable (env.ok = true →
      (∀ d' ∈ other.holds, d'.name ≠ d.name) ∧
      (∀ cancelled ∈ other.cancelling, cancelled.1 = d.name → d.number < cancelled.2) ∧
      ¬other.Lists d.name))
  | .invalid d => inferInstanceAs (Decidable (env.ok = true → ¬other.Lists d.name))
  | .deletes name _ => inferInstanceAs (Decidable (env.ok = true → ¬other.Lists name))
  | .flushed d w => inferInstanceAs (Decidable ((0 < w.totalSize ∧ w.downloaded ≠ w.totalSize) ∨
      ∀ cancelled ∈ other.cancelling, cancelled.1 ≠ d.name))
  | .quiet => inferInstanceAs (Decidable True)
  | .finds _ _ => inferInstanceAs (Decidable True)
  | .checks _ _ _ => inferInstanceAs (Decidable True)
  | .writes _ _ => inferInstanceAs (Decidable True)
  | .truncated _ => inferInstanceAs (Decidable True)
  | .verified _ => inferInstanceAs (Decidable True)
  | .validated _ => inferInstanceAs (Decidable True)
  | .cancels _ _ => inferInstanceAs (Decidable True)

instance (s : Shared) : ∀ k, Decidable (careful.call k s)
  | .cancel name => inferInstanceAs (Decidable
      (∀ file ∈ s.directory (filename name), file.finished = false))
  | .discover => inferInstanceAs (Decidable True)
  | .download _ => inferInstanceAs (Decidable True)
  | .delete _ => inferInstanceAs (Decidable True)

instance (k : ModelCall) (b : ModelTask) : Decidable (careful.callBeside k b) :=
  inferInstanceAs (Decidable True)

instance (env : ModelEnv) (s : Shared) (a : ModelTask) : Decidable (careful.step env s a) :=
  inferInstanceAs (Decidable (CarefulStep env s a.role))

instance (env : ModelEnv) (s : Shared) (a b : ModelTask) :
    Decidable (careful.stepBeside env s a b) :=
  inferInstanceAs (Decidable (CarefulBeside env b.role a.role))

/-- So many mebibytes with the header of a model. -/
def mebibytes (n : ℕ) : Bytes where
  size := n * (1024 * 1024)
  byte i := [0x6c, 0x6d, 0x67, 0x67].getD i 0

/-- The server sends 74 MiB, and the file system does as it is asked. -/
def serves (item : StreamItem) (landed : ℕ) : ModelEnv :=
  ⟨true, .success (some (74 * 1024 * 1024)), item, landed, some 50⟩

/-- A call takes some steps. -/
def steps (t n : ℕ) (item : StreamItem) (landed : ℕ) : List (Tasks.Label ModelEnv ModelCall) :=
  List.replicate n (.run t (serves item landed) 0)

/-- The models are discovered by a call that looks at so many headers. -/
def discovers (t headers : ℕ) : List (Tasks.Label ModelEnv ModelCall) :=
  .call t .discover :: steps t (14 + headers) .waiting 0

/-- A download receives so many mebibytes, and they reach the file. -/
def downloads (t n : ℕ) : List (Tasks.Label ModelEnv ModelCall) :=
  .call t (.download "tiny") :: steps t 10 .waiting 0 ++ (steps t 1 (.chunk (mebibytes n)) 0 ++
    (steps t 3 .waiting 0 ++ steps t 1 .waiting (n * (1024 * 1024))))

/-- The models are discovered while one is halfway there, and again when it has been cancelled and
downloaded anew. -/
def cancelledHalfway : List (Tasks.Label ModelEnv ModelCall) :=
  discovers 0 0 ++ (downloads 1 37 ++ (discovers 2 0 ++ (.call 3 (.cancel "tiny") ::
    steps 3 3 .waiting 0 ++ (steps 1 1 (.chunk (mebibytes 1)) 0 ++ (steps 1 5 .waiting 0 ++
      (steps 3 1 .waiting 0 ++ (downloads 4 74 ++ (steps 4 1 .ended 0 ++ (steps 4 6 .waiting 0 ++
        discovers 5 1)))))))))

/-- What a run leaves of a model: its path and status, whether its file is finished, and how many
files were cancelled. -/
def outcome (s : Shared) (name : String) : Option (String × ModelStatus) × Option Bool × ℕ :=
  ((s.availableModels name).map fun info => (info.path, info.status),
    (s.directory (filename name)).map (·.finished), s.cancelled.length)

/-- A cancelled and a finished download. -/
theorem truthful_cancelledHalfway : ∃ c : Tasks.Config Shared ModelTask,
    Tasks.Program.runBelow program careful 6 (start fun _ => none) cancelledHalfway = some c ∧
      outcome c.shared "tiny" = (some ("ggml-tiny.bin", .available), some true, 1) ∧
      Truthful c.shared := by
  have hrun : (Tasks.Program.runBelow program careful 6 (start fun _ => none)
      cancelledHalfway).map (outcome ·.shared "tiny") =
        some (some ("ggml-tiny.bin", .available), some true, 1) := by decide +kernel
  obtain ⟨c, hc, houtcome⟩ := Option.map_eq_some_iff.mp hrun
  have hidle : ∀ env s a, careful.stepBeside env s a .free := fun _ _ _ => carefulBeside_quiet
  have hreaches : Tasks.Reaches program careful (start fun _ => none) c :=
    .of_runBelow (fun _ => trivial) hidle (fun _ _ => rfl) .refl hc
  exact ⟨c, hc, houtcome, truthful_of_reaches hreaches⟩

/-- The models are discovered while one is almost there. -/
def discoveredEarly : List (Tasks.Label ModelEnv ModelCall) :=
  discovers 0 0 ++ (downloads 1 70 ++ discovers 2 1)

/-- In general the statuses are not true: a model is available whose download goes on. -/
theorem not_truthful_discoveredEarly :
    ¬∀ (disk : String → Option (Bytes × Bool)) (c : Tasks.Config Shared ModelTask),
      Tasks.Reaches program .free (start disk) c → Truthful c.shared := by
  intro h
  have hrun : (program.runAll (start fun _ => none) discoveredEarly).map (outcome ·.shared "tiny") =
      some (some ("ggml-tiny.bin", .available), some false, 0) := by decide +kernel
  obtain ⟨c, hc, houtcome⟩ := Option.map_eq_some_iff.mp hrun
  obtain ⟨hmodel, hrest⟩ := Prod.mk.inj houtcome
  obtain ⟨hunfinished, -⟩ := Prod.mk.inj hrest
  obtain ⟨info, hinfo, heq⟩ := Option.map_eq_some_iff.mp hmodel
  obtain ⟨hpath, hstatus⟩ := Prod.mk.inj heq
  obtain ⟨file, hfile, hfinished⟩ :=
    (h _ c (.of_runAll .refl hc)).available "tiny" info hinfo hstatus
  obtain ⟨file', hfile', hunfinished⟩ := Option.map_eq_some_iff.mp hunfinished
  rw [hpath] at hfile
  have hsame : file = file' := Option.some.inj (hfile.symm.trans hfile')
  rw [← hsame, hfinished] at hunfinished
  cases hunfinished

end WhisperModels

end MeetilyLocal
