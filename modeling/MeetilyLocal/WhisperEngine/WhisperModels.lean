import MeetilyLocal.Utils.DownloadGuard

/-!
# The models of the Whisper engine

`discover_models`, `download_model`, `cancel_download` and `delete_model` of
`whisper_engine/whisper_engine.rs`, with the loop of `download_file` (`utils/download.rs`) that the
downloads go through. Any number of them run at a time over the models directory, the map of known
models and the download guard, interleaved wherever they await and between any two looks at the
file system.

Bytes that a download has received wait in its buffers; which of them have reached the file is up to
the outside until the buffers are flushed. A file that was removed while it was open is written
further by the one who opened it and seen by nobody else. Each file carries what its status should
tell: which download opened it last, whether another one wrote to it since, and whether a download
has finished it.
-/

namespace MeetilyLocal

namespace WhisperModels

open Downloads (Download)

/-! ## Files -/

/-- Bytes, by position; those from `size` on do not count. -/
structure Bytes : Type where
  /-- how many there are -/
  size : ℕ
  /-- the byte at a position -/
  byte : ℕ → UInt8

namespace Bytes

/-- No bytes. -/
def empty : Bytes := ⟨0, fun _ => 0⟩

/-- Some bytes written over others from a position on; what is skipped is zero. -/
def write (old : Bytes) (offset : ℕ) (new : Bytes) : Bytes where
  size := max old.size (offset + new.size)
  byte i :=
    if offset ≤ i ∧ i < offset + new.size then new.byte (i - offset)
    else if i < old.size then old.byte i
    else 0

/-- Some bytes behind others. -/
def append (bytes more : Bytes) : Bytes := bytes.write bytes.size more

/-- The first bytes. -/
def take (bytes : Bytes) (n : ℕ) : Bytes := ⟨min n bytes.size, bytes.byte⟩

/-- The bytes behind the first ones. -/
def drop (bytes : Bytes) (n : ℕ) : Bytes := ⟨bytes.size - n, fun i => bytes.byte (i + n)⟩

end Bytes

/-- The headers that are accepted: `ggml`, `GGUF`, `ggmf`, `lmgg`, `FUGU` and `fmgg`. -/
def magics : List (List UInt8) :=
  [[0x67, 0x67, 0x6d, 0x6c], [0x47, 0x47, 0x55, 0x46], [0x67, 0x67, 0x6d, 0x66],
    [0x6c, 0x6d, 0x67, 0x67], [0x46, 0x55, 0x47, 0x55], [0x66, 0x6d, 0x67, 0x67]]

/-- `validate_model_file_magic`, for a file that can be opened. -/
def validateModelFileMagic (bytes : Bytes) : Bool :=
  decide (8 ≤ bytes.size) && magics.contains ((List.range 4).map bytes.byte)

/-- A file in the models directory. -/
structure File : Type where
  /-- which one it is -/
  id : ℕ
  /-- what is in it -/
  bytes : Bytes
  /-- the number of the download that opened it last, none for one of an earlier session -/
  owner : Option ℕ
  /-- another download wrote to it since -/
  mixed : Bool
  /-- a download finished it: as its only writer it wrote as many bytes as it counted, and passed
  the check of the size -/
  finished : Bool

namespace File

/-- A download writes some bytes. -/
def write (file : File) (d : Download) (offset : ℕ) (new : Bytes) : File :=
  if new.size = 0 then file
  else { file with
    bytes := file.bytes.write offset new
    mixed := file.mixed || decide (file.owner ≠ some d.number)
    finished := false }

/-- A download that counted so many bytes has passed the check of the size. -/
def pass (file : File) (d : Download) (downloaded : ℕ) : File :=
  { file with
    finished := file.finished || (decide (file.owner = some d.number) && !file.mixed &&
      decide (file.bytes.size = downloaded)) }

end File

/-! ## The state -/

/-- `ModelStatus` -/
inductive ModelStatus : Type where
  /-- it can be loaded -/
  | available : ModelStatus
  /-- it is not there -/
  | missing : ModelStatus
  /-- it is being downloaded, with the progress in percent -/
  | downloading : ℕ → ModelStatus
  /-- an error -/
  | error : String → ModelStatus
  /-- its file has a size, and at least another one was expected -/
  | corrupted : ℕ → ℕ → ModelStatus
  deriving DecidableEq

/-- `ModelInfo`, with the path as seen from the models directory. -/
structure ModelInfo : Type where
  /-- the name of the model -/
  name : String
  /-- where its file is -/
  path : String
  /-- the size in the catalog -/
  sizeMb : ℕ
  /-- its status -/
  status : ModelStatus

/-- An entry of the catalog. -/
structure CatalogEntry : Type where
  /-- the name of the model -/
  name : String
  /-- the name of its file -/
  filename : String
  /-- its size -/
  sizeMb : ℕ

/-- `WHISPER_MODEL_CATALOG` -/
def whisperModelCatalog : List CatalogEntry :=
  [⟨"tiny", "ggml-tiny.bin", 74⟩, ⟨"base", "ggml-base.bin", 142⟩,
    ⟨"small", "ggml-small.bin", 466⟩, ⟨"medium", "ggml-medium.bin", 1463⟩,
    ⟨"large-v3-turbo", "ggml-large-v3-turbo.bin", 1549⟩,
    ⟨"large-v3", "ggml-large-v3.bin", 2951⟩, ⟨"tiny-q5_1", "ggml-tiny-q5_1.bin", 31⟩,
    ⟨"base-q5_1", "ggml-base-q5_1.bin", 57⟩, ⟨"small-q5_1", "ggml-small-q5_1.bin", 181⟩,
    ⟨"medium-q5_0", "ggml-medium-q5_0.bin", 514⟩,
    ⟨"large-v3-turbo-q5_0", "ggml-large-v3-turbo-q5_0.bin", 547⟩,
    ⟨"large-v3-q5_0", "ggml-large-v3-q5_0.bin", 1031⟩]

/-- The models that `download_model` has a URL for. -/
def hasModelUrl (name : String) : Bool :=
  ["tiny", "base", "small", "medium", "large-v3-turbo", "large-v3", "tiny-q5_1", "base-q5_1",
    "small-q5_1", "medium-q5_0", "large-v3-turbo-q5_0", "large-v3-q5_0"].contains name

/-- The name of the file that a download writes and a cancellation removes. -/
def filename (name : String) : String := "ggml-" ++ name ++ ".bin"

/-- What the calls share, and which files have been removed by a cancellation, each with the number
of downloads that had begun when `cancel_download` was called. -/
structure Shared : Type where
  /-- the models directory -/
  directory : String → Option File
  /-- the number of the next file -/
  nextFile : ℕ
  /-- `available_models` -/
  availableModels : String → Option ModelInfo
  /-- `download_guard` -/
  guard : DownloadGuard
  /-- how many downloads have begun -/
  begun : ℕ
  /-- the files that cancellations have removed -/
  cancelled : List (File × ℕ)

namespace Shared

/-- What becomes of the file at a path. -/
def setFile (s : Shared) (path : String) (file : Option File) : Shared :=
  { s with directory := Function.update s.directory path file }

/-- What becomes of the open file of a download, unless it was removed. -/
def updateOpen (s : Shared) (path : String) (id : ℕ) (f : File → File) : Shared :=
  match s.directory path with
  | some file => if file.id = id then s.setFile path (some (f file)) else s
  | none => s

/-- What becomes of a model that is known. -/
def updateInfo (s : Shared) (name : String) (f : ModelInfo → ModelInfo) : Shared :=
  { s with availableModels :=
      Function.update s.availableModels name ((s.availableModels name).map f) }

/-- The status of a model that is known. -/
def setStatus (s : Shared) (name : String) (status : ModelStatus) : Shared :=
  s.updateInfo name fun info => { info with status := status }

/-- The part of `discover_models` that has the map locked. -/
def store (s : Shared) (models : List ModelInfo) : Shared :=
  { s with availableModels :=
      models.foldl (fun known info => Function.update known info.name (some info)) fun _ => none }

end Shared

/-! ## Where the calls are -/

/-- The file that a download has open. -/
structure Writer : Type where
  /-- which one it is -/
  file : ℕ
  /-- it was opened to append to it -/
  appends : Bool
  /-- where it is written next, if not at its end -/
  offset : ℕ
  /-- the bytes that were received and have not reached it -/
  pending : Bytes
  /-- `downloaded` -/
  downloaded : ℕ
  /-- `total_size` -/
  totalSize : ℕ

/-- Where `discover_models` is. -/
inductive DiscoverPc : Type where
  /-- before the statuses are read -/
  | snapshot : DiscoverPc
  /-- before it looks at the size of the next file, or, behind the last one, stores the models it
  has found -/
  | scan : (String → Option ModelInfo) → List ModelInfo → List CatalogEntry → DiscoverPc
  /-- before it looks at the header of a file that is large enough -/
  | checkMagic : (String → Option ModelInfo) → List ModelInfo → CatalogEntry → ℕ →
      List CatalogEntry → DiscoverPc

/-- Where `download_model` is from when its name is active. -/
inductive DownloadPc : Type where
  /-- `begin`, before the request is cleared -/
  | clearCancel : DownloadPc
  /-- before it looks for the URL -/
  | pickUrl : DownloadPc
  /-- before the directory is created -/
  | createDir : DownloadPc
  /-- before the status is set -/
  | setDownloading : DownloadPc
  /-- before it looks for a file to resume -/
  | measure : DownloadPc
  /-- before the request is sent, with the size of the file -/
  | request : ℕ → DownloadPc
  /-- before the file is opened, with the size of the file, the total size and whether it resumes -/
  | openFile : ℕ → ℕ → Bool → DownloadPc
  /-- before progress is reported -/
  | report : Writer → DownloadPc
  /-- the loop, before it looks for a request -/
  | look : Writer → DownloadPc
  /-- the loop, before it takes the next chunk from the stream -/
  | read : Writer → DownloadPc
  /-- the loop, before it writes the chunk -/
  | write : Writer → Bytes → DownloadPc
  /-- after the stream has ended, before the file is flushed -/
  | flush : Writer → DownloadPc
  /-- after the loop was left early, before the file is flushed; whether by a request -/
  | flushEarly : Writer → Bool → DownloadPc
  /-- before the size is checked -/
  | checkSize : Writer → DownloadPc
  /-- before a file of the wrong size is removed -/
  | removeTruncated : DownloadPc
  /-- before the last progress is reported -/
  | reportEnd : DownloadPc
  /-- before it looks at the header -/
  | validate : DownloadPc
  /-- before a file with a wrong header is removed -/
  | removeInvalid : DownloadPc
  /-- before the status is reset because of it -/
  | markInvalid : DownloadPc
  /-- before the status is set to available -/
  | setAvailable : DownloadPc
  /-- before `finish`, and whether the status is reset afterwards -/
  | finish : Bool → DownloadPc

/-- Where `cancel_download` is. -/
inductive CancelPc : Type where
  /-- `request_cancel`, before the request is set -/
  | setCancel : CancelPc
  /-- `request_cancel`, before the name is removed -/
  | removeActive : CancelPc
  /-- before the status is reset -/
  | resetStatus : CancelPc
  /-- after the delay, before the file is removed -/
  | removeFile : CancelPc
  deriving DecidableEq

/-- Where `delete_model` is. -/
inductive DeletePc : Type where
  /-- before it looks for the model -/
  | lookUp : DeletePc
  /-- before the file is removed -/
  | removeFile : String → DeletePc

/-- A call. -/
inductive ModelTask : Type where
  /-- a call that does not exist -/
  | free : ModelTask
  /-- `discover_models` -/
  | discover : DiscoverPc → ModelTask
  /-- `begin` of a download, before the active set is locked -/
  | insertActive : String → ModelTask
  /-- `download_model` -/
  | download : Download → DownloadPc → ModelTask
  /-- `cancel_download`, with the number of downloads that had begun when it was called -/
  | cancel : String → ℕ → CancelPc → ModelTask
  /-- `delete_model` -/
  | delete : String → DeletePc → ModelTask
  /-- before a download that has failed, or a deletion, resets the status -/
  | resetStatus : String → ModelTask
  /-- a call that has returned -/
  | finished : ModelTask

/-- The calls from outside. -/
inductive ModelCall : Type where
  /-- `discover_models` -/
  | discover : ModelCall
  /-- `download_model` -/
  | download : String → ModelCall
  /-- `cancel_download` -/
  | cancel : String → ModelCall
  /-- `delete_model` -/
  | delete : String → ModelCall

/-- How a request is answered. -/
inductive Response : Type where
  /-- not at all -/
  | failed : Response
  /-- with `206 Partial Content` and maybe a content length -/
  | partialContent : Option ℕ → Response
  /-- with another success and maybe a content length -/
  | success : Option ℕ → Response
  /-- with a status that is no success -/
  | refused : Response

/-- What comes from the stream. -/
inductive StreamItem : Type where
  /-- nothing yet -/
  | waiting : StreamItem
  /-- a chunk -/
  | chunk : Bytes → StreamItem
  /-- its end -/
  | ended : StreamItem
  /-- an error -/
  | error : StreamItem

/-- What the outside decides at a step. -/
structure ModelEnv : Type where
  /-- whether the file system does as it is asked -/
  ok : Bool
  /-- the answer to the request -/
  response : Response
  /-- what comes from the stream -/
  item : StreamItem
  /-- how many of the bytes that wait reach the file -/
  landed : ℕ
  /-- the progress that is reported, if any and if the map can be locked at once -/
  progress : Option ℕ

/-! ## The calls -/

/-- The part of `scan_catalog_entry` before the header: the status, or the size of a file that is
large enough. For a `u32` the bound `(size_mb as f64 * 0.9) as u64` is nine tenths, rounded down. -/
def scanMetadata (sizeMb : ℕ) (downloadingProgress : Option ℕ) :
    Option ℕ → ModelStatus ⊕ ℕ
  | none => .inl .missing
  | some fileSizeBytes =>
    let fileSizeMb := fileSizeBytes / (1024 * 1024)
    let expectedMinSizeMb := sizeMb * 9 / 10
    if expectedMinSizeMb ≤ fileSizeMb ∧ 1 < fileSizeMb then .inr fileSizeBytes
    else if 0 < fileSizeMb then
      match downloadingProgress with
      | some progress => .inl (.downloading progress)
      | none => .inl (.corrupted fileSizeBytes (expectedMinSizeMb * 1024 * 1024))
    else .inl .missing

/-- The part of `scan_catalog_entry` that looks at the header. -/
def scanMagic (sizeMb fileSizeBytes : ℕ) (valid : Bool) : ModelStatus :=
  if valid then .available else .corrupted fileSizeBytes (sizeMb * 9 / 10 * 1024 * 1024)

/-- The progress of a model that is being downloaded. -/
def downloadingProgress (current : String → Option ModelInfo) (name : String) : Option ℕ :=
  (current name).bind fun info =>
    match info.status with
    | .downloading progress => some progress
    | _ => none

/-- What `discover_models` finds of an entry. -/
def CatalogEntry.found (entry : CatalogEntry) (status : ModelStatus) : ModelInfo :=
  ⟨entry.name, entry.filename, entry.sizeMb, status⟩

/-- The file at a path can be opened and has an accepted header. -/
def Shared.validates (s : Shared) (ok : Bool) (path : String) : Bool :=
  match s.directory path with
  | some file => ok && validateModelFileMagic file.bytes
  | none => false

/-- `discover_models` -/
def discoverStep (env : ModelEnv) (s : Shared) : DiscoverPc → Shared × ModelTask
  | .snapshot => (s, .discover (.scan s.availableModels [] whisperModelCatalog))
  | .scan _ models [] => (s.store models, .finished)
  | .scan current models (entry :: rest) =>
    let metadata := if env.ok then (s.directory entry.filename).map (·.bytes.size) else none
    match scanMetadata entry.sizeMb (downloadingProgress current entry.name) metadata with
    | .inl status => (s, .discover (.scan current (models ++ [entry.found status]) rest))
    | .inr fileSize => (s, .discover (.checkMagic current models entry fileSize rest))
  | .checkMagic current models entry fileSize rest =>
    let status := scanMagic entry.sizeMb fileSize (s.validates env.ok entry.filename)
    (s, .discover (.scan current (models ++ [entry.found status]) rest))

/-- The callback of the download: the status follows if the map can be locked at once. -/
def Shared.reportProgress (s : Shared) (name : String) (progress : Option ℕ) : Shared :=
  match progress with
  | some percent => s.setStatus name (.downloading percent)
  | none => s

namespace Writer

/-- Where the next bytes go. -/
def position (w : Writer) (file : File) : ℕ := if w.appends then file.bytes.size else w.offset

/-- Some bytes have reached the file. -/
def land (w : Writer) (n : ℕ) : Writer :=
  { w with offset := w.offset + min n w.pending.size, pending := w.pending.drop n }

/-- A chunk is in the buffers. -/
def receive (w : Writer) (chunk : Bytes) : Writer := { w with pending := w.pending.append chunk }

/-- It is counted. -/
def count (w : Writer) (chunk : Bytes) : Writer :=
  { w with downloaded := w.downloaded + chunk.size }

end Writer

/-- Some of the bytes that wait reach the file. -/
def Shared.land (s : Shared) (d : Download) (w : Writer) (n : ℕ) : Shared :=
  s.updateOpen (filename d.name) w.file fun file =>
    file.write d (w.position file) (w.pending.take n)

/-- The file is opened: to append to it, or created or emptied. -/
def openFile (s : Shared) (d : Download) (existing total : ℕ) (resuming : Bool) :
    Option (Shared × Writer) :=
  let path := filename d.name
  if resuming then
    (s.directory path).map fun file =>
      (s.setFile path (some ⟨file.id, file.bytes, some d.number, false, false⟩),
        ⟨file.id, true, 0, .empty, existing, total⟩)
  else
    match s.directory path with
    | some file =>
      some (s.setFile path (some ⟨file.id, .empty, some d.number, false, false⟩),
        ⟨file.id, false, 0, .empty, 0, total⟩)
    | none =>
      some ({ s.setFile path (some ⟨s.nextFile, .empty, some d.number, false, false⟩) with
          nextFile := s.nextFile + 1 },
        ⟨s.nextFile, false, 0, .empty, 0, total⟩)

/-- `download_model` from when its name is active, with the loop of `download_file` -/
def downloadStep (env : ModelEnv) (s : Shared) (d : Download) :
    DownloadPc → Shared × ModelTask
  | .clearCancel =>
    ({ s with guard := s.guard.clearCancel }, .download d .pickUrl)
  | .pickUrl =>
    (s, .download d (if hasModelUrl d.name then .createDir else .finish false))
  | .createDir =>
    -- an error here returns at once, without `finish`
    (s, if env.ok then .download d .setDownloading else .finished)
  | .setDownloading => (s.setStatus d.name (.downloading 0), .download d .measure)
  | .measure =>
    let existing := if env.ok then
      ((s.directory (filename d.name)).map (·.bytes.size)).getD 0 else 0
    (s, .download d (.request existing))
  | .request existing =>
    match env.response with
    | .partialContent remaining =>
      (s, .download d (.openFile existing (existing + remaining.getD 0) true))
    | .success length => (s, .download d (.openFile existing (length.getD 0) false))
    | .failed | .refused => (s, .download d (.finish true))
  | .openFile existing total resuming =>
    match (if env.ok then openFile s d existing total resuming else none) with
    | some (s', w) => (s', .download d (.report w))
    | none => (s, .download d (.finish true))
  | .report w => (s.reportProgress d.name env.progress, .download d (.look w))
  | .look w =>
    (s, .download d (if s.guard.isCancelRequested d.name then .flushEarly w true else .read w))
  | .read w =>
    match env.item with
    | .waiting => (s.land d w env.landed, .download d (.read (w.land env.landed)))
    | .chunk chunk => (s, .download d (.write w chunk))
    | .ended => (s, .download d (.flush w))
    | .error => (s, .download d (.flushEarly w false))
  | .write w chunk =>
    let received := w.receive chunk
    if env.ok then (s, .download d (.report (received.count chunk)))
    else (s.land d received env.landed, .download d (.finish true))
  | .flush w =>
    if env.ok then
      (s.land d w w.pending.size, .download d (.checkSize (w.land w.pending.size)))
    else (s.land d w env.landed, .download d (.finish true))
  | .flushEarly w requested =>
    (s.land d w env.landed, .download d (.finish (!requested)))
  | .checkSize w =>
    if 0 < w.totalSize ∧ w.downloaded ≠ w.totalSize then (s, .download d .removeTruncated)
    else
      (s.updateOpen (filename d.name) w.file (·.pass d w.downloaded), .download d .reportEnd)
  | .removeTruncated =>
    (if env.ok then s.setFile (filename d.name) none else s, .download d (.finish true))
  | .reportEnd => (s.reportProgress d.name env.progress, .download d .validate)
  | .validate =>
    (s, .download d (if s.validates env.ok (filename d.name) then .setAvailable
      else .removeInvalid))
  | .removeInvalid =>
    (if env.ok then s.setFile (filename d.name) none else s, .download d .markInvalid)
  | .markInvalid => (s.setStatus d.name .missing, .download d (.finish false))
  | .setAvailable =>
    (s.updateInfo d.name fun info =>
        { info with status := .available, path := filename d.name },
      .download d (.finish false))
  | .finish resets =>
    ({ s with guard := s.guard.finish d.name },
      if resets then .resetStatus d.name else .finished)

/-- `cancel_download` -/
def cancelStep (env : ModelEnv) (s : Shared) (name : String) (before : ℕ) :
    CancelPc → Shared × ModelTask
  | .setCancel =>
    ({ s with guard := s.guard.setCancel name }, .cancel name before .removeActive)
  | .removeActive =>
    ({ s with guard := s.guard.finish name }, .cancel name before .resetStatus)
  | .resetStatus => (s.setStatus name .missing, .cancel name before .removeFile)
  | .removeFile =>
    match (if env.ok then s.directory (filename name) else none) with
    | some file =>
      ({ s.setFile (filename name) none with cancelled := (file, before) :: s.cancelled },
        .finished)
    | none => (s, .finished)

/-- `delete_model` -/
def deleteStep (env : ModelEnv) (s : Shared) (name : String) :
    DeletePc → Shared × ModelTask
  | .lookUp =>
    match s.availableModels name with
    | some info =>
      match info.status with
      | .corrupted _ _ | .available => (s, .delete name (.removeFile info.path))
      | _ => (s, .finished)
    | none => (s, .finished)
  | .removeFile path =>
    if (s.directory path).isSome then
      if env.ok then (s.setFile path none, .resetStatus name) else (s, .finished)
    else (s, .resetStatus name)

/-- How a call from outside begins. -/
def begins : ModelCall → Shared → Option (Shared × ModelTask)
  | .discover, s => some (s, .discover .snapshot)
  | .download name, s => some (s, .insertActive name)
  | .cancel name, s => some (s, .cancel name s.begun .setCancel)
  | .delete name, s => some (s, .delete name .lookUp)

/-- One step of a call; none spawns another. -/
def step (env : ModelEnv) (s : Shared) (a : ModelTask) : Option (Tasks.Move Shared ModelTask) :=
  (stepAlone a).map fun after => ⟨after.1, after.2, none⟩
where
  /-- the state and the call after it -/
  stepAlone : ModelTask → Option (Shared × ModelTask)
    | .discover pc => some (discoverStep env s pc)
    | .insertActive name =>
      match s.guard.insertActive name with
      | none => some (s, .finished)
      | some guard =>
        some ({ s with guard := guard, begun := s.begun + 1 },
          .download ⟨s.begun, name⟩ .clearCancel)
    | .download d pc => some (downloadStep env s d pc)
    | .cancel name before pc => some (cancelStep env s name before pc)
    | .delete name pc => some (deleteStep env s name pc)
    | .resetStatus name => some (s.setStatus name .missing, .finished)
    | .free | .finished => none

/-- The calls on the models. -/
def program : Tasks.Program Shared ModelTask ModelEnv ModelCall where
  isFree task := match task with | .free => true | _ => false
  begins := begins
  step := step

/-- The start of a session: the files of earlier ones, and which of them a download finished. -/
def start (disk : String → Option (Bytes × Bool)) : Tasks.Config Shared ModelTask where
  shared :=
    ⟨fun path => (disk path).map fun file => ⟨0, file.1, none, false, file.2⟩, 1, fun _ => none,
      .new, 0, []⟩
  tasks _ := .free

/-- The statuses tell the truth: the file of a model that is available is one that a download
finished, and no cancellation has removed a file that was finished or that a later download had
opened. -/
structure Truthful (s : Shared) : Prop where
  /-- a model that is available has a finished file -/
  available (name : String) : ∀ info ∈ s.availableModels name, info.status = .available →
    ∃ file, s.directory info.path = some file ∧ file.finished = true
  /-- a cancellation removes neither finished nor later files -/
  cancelled : ∀ removed ∈ s.cancelled, removed.1.finished = false ∧
    ∀ number ∈ removed.1.owner, number < removed.2

end WhisperModels

end MeetilyLocal
