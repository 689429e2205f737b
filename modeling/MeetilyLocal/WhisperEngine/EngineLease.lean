import MeetilyLocal.Library.Tasks

/-!
# The lease on the Whisper engine

The embedding of `whisper_engine/lease.rs` and of those who share the engine: the live workers
(`audio/transcription/worker.rs` and `partial_worker.rs`), which hold the lease while they run, and
the batch jobs (`audio/retranscription.rs`, `audio/import.rs` and `unload_engine_after_batch` in
`audio/common.rs`), which load and unload the model and ask for the lease before they do. They are
tasks over the engine and the counter; one step of a task is what it does under one lock, on one
atomic or on values of its own.

`load_model`, `unload_model`, `wait_until_free` and a decode are programs of their own, which the
tasks go through. What a decode computes, the audio and the transcripts are left out.
-/

namespace MeetilyLocal

/-- Which long-lived state a decode should use. -/
inductive DecodePurpose : Type where
  /-- the authoritative, committed transcript -/
  | finalPath : DecodePurpose
  /-- a discarded streaming preview of the utterance in progress -/
  | partialPath : DecodePurpose
  deriving DecidableEq

/-- The engine; a context and a state are named by the model whose weights they have. -/
structure WhisperEngine : Type where
  /-- `current_context` -/
  currentContext : Option String
  /-- `unload_model` has it locked -/
  contextLocked : Bool
  /-- `current_model` -/
  currentModel : Option String
  /-- `unload_model` has it locked -/
  modelLocked : Bool
  /-- `state_pool` -/
  statePool : DecodePurpose → Option String

/-- What kind of batch job. -/
inductive BatchKind : Type where
  /-- `start_retranscription_with` -/
  | retranscription : BatchKind
  /-- `start_import_with` -/
  | audioImport : BatchKind
  deriving DecidableEq

/-- What the live workers and the batch jobs share. -/
structure SharedEngine : Type where
  /-- the counter of `LIVE_ENGINE_LEASE` -/
  leaseCount : ℕ
  /-- `WHISPER_ENGINE` has an engine -/
  initialized : Bool
  /-- the engine -/
  engine : WhisperEngine
  /-- `RETRANSCRIPTION_IN_PROGRESS` and `IMPORT_IN_PROGRESS` -/
  inProgress : BatchKind → Bool

/-- At program start. -/
def SharedEngine.initial : SharedEngine :=
  ⟨0, false, ⟨none, false, none, false, fun _ => none⟩, fun _ => false⟩

/-- `is_live_leased` -/
def SharedEngine.isLiveLeased (s : SharedEngine) : Bool := decide (0 < s.leaseCount)

/-- What the saved configuration asks of the live path. -/
inductive LiveConfig : Type where
  /-- a provider that is not local -/
  | otherProvider : LiveConfig
  /-- no model -/
  | noModel : LiveConfig
  /-- a model -/
  | model : LiveConfig
  deriving DecidableEq

/-- What the outside decides at a step. -/
structure EngineEnv : Type where
  /-- what is tried succeeds -/
  ok : Bool
  /-- there is another chunk or segment -/
  more : Bool
  /-- the deadline of the wait has passed -/
  timedOut : Bool
  /-- the recording service records -/
  recording : Bool
  /-- the configured model of a batch job, if it can be read -/
  configured : Option String
  /-- what the configuration asks of the live path -/
  live : LiveConfig
  /-- what `resolve_loadable_model` returns -/
  loadable : Option String

/-! ## The programs that the tasks go through -/

/-- Where `unload_model` is. -/
inductive UnloadPc : Type where
  /-- taking the context; it stays locked -/
  | takeContext : UnloadPc
  /-- taking the name of the model; it stays locked -/
  | takeModel : UnloadPc
  /-- clearing the pool; the locks are let go -/
  | clearPool : UnloadPc
  deriving DecidableEq

/-- Where `load_model` is. -/
inductive LoadPc : Type where
  /-- looking the model up -/
  | lookUp : LoadPc
  /-- reading which model is loaded -/
  | readCurrent : LoadPc
  /-- unloading it -/
  | unload : UnloadPc → LoadPc
  /-- reading the weights -/
  | readWeights : LoadPc
  /-- storing the context -/
  | setContext : LoadPc
  /-- storing the name of the model -/
  | setModel : LoadPc
  deriving DecidableEq

/-- Where `wait_until_free` is. -/
inductive WaitPc : Type where
  /-- the look before the wait -/
  | first : WaitPc
  /-- the look after it registered for a notification -/
  | registered : WaitPc
  /-- waiting for the notification or the deadline -/
  | select : WaitPc
  /-- the look after a notification -/
  | notified : WaitPc
  /-- looking at the clock -/
  | deadline : WaitPc
  deriving DecidableEq

/-- Where `get_or_create_state` is. -/
inductive DecodePc : Type where
  /-- looking in the pool -/
  | lookInPool : DecodePc
  /-- reading the context -/
  | readContext : DecodePc
  /-- putting a state of the context into the pool -/
  | insert : String → DecodePc
  deriving DecidableEq

/-- Where such a program is after a step, or how it ends. -/
inductive Goes (Pc : Type) : Type where
  /-- it goes on -/
  | to : Pc → Goes Pc
  /-- it ends, well or not -/
  | ends : Bool → Goes Pc

namespace WhisperEngine

/-- `unload_model` -/
def unloadStep (e : WhisperEngine) : UnloadPc → Option (WhisperEngine × Goes UnloadPc)
  | .takeContext =>
    if e.contextLocked then none
    else some ({ e with currentContext := none, contextLocked := true }, .to .takeModel)
  | .takeModel =>
    if e.modelLocked then none
    else some ({ e with currentModel := none, modelLocked := true }, .to .clearPool)
  | .clearPool =>
    some ({ e with statePool := fun _ => none, contextLocked := false, modelLocked := false },
      .ends true)

/-- `load_model` -/
def loadStep (target : String) (env : EngineEnv) (e : WhisperEngine) :
    LoadPc → Option (WhisperEngine × Goes LoadPc)
  | .lookUp => some (e, if env.ok then .to .readCurrent else .ends false)
  | .readCurrent =>
    if e.modelLocked then none
    else
      match e.currentModel with
      | some current =>
        some (e, if current = target then .ends true else .to (.unload .takeContext))
      | none => some (e, .to .readWeights)
  | .unload pc =>
    match e.unloadStep pc with
    | some (e', .to pc') => some (e', .to (.unload pc'))
    | some (e', .ends _) => some (e', .to .readWeights)
    | none => none
  | .readWeights => some (e, if env.ok then .to .setContext else .ends false)
  | .setContext =>
    if e.contextLocked then none
    else some ({ e with currentContext := some target }, .to .setModel)
  | .setModel =>
    if e.modelLocked then none else some ({ e with currentModel := some target }, .ends true)

/-- `get_or_create_state` -/
def decodeStep (purpose : DecodePurpose) (env : EngineEnv) (e : WhisperEngine) :
    DecodePc → Option (WhisperEngine × Goes DecodePc)
  | .lookInPool =>
    some (e, if (e.statePool purpose).isSome then .ends true else .to .readContext)
  | .readContext =>
    if e.contextLocked then none
    else
      match e.currentContext with
      | some context => some (e, .to (.insert context))
      | none => some (e, .ends false)
  | .insert context =>
    if (e.statePool purpose).isSome then some (e, .ends true)
    else if env.ok then
      some ({ e with statePool := Function.update e.statePool purpose (some context) }, .ends true)
    else some (e, .ends false)

end WhisperEngine

/-- `wait_until_free`; it ends well if the lease is free. -/
def SharedEngine.waitStep (s : SharedEngine) (env : EngineEnv) : WaitPc → Goes WaitPc
  | .first => if s.isLiveLeased then .to .registered else .ends true
  | .registered => if s.isLiveLeased then .to .select else .ends true
  | .select => if env.timedOut then .ends false else .to .notified
  | .notified => if s.isLiveLeased then .to .deadline else .ends true
  | .deadline => if env.timedOut then .ends false else .to .registered

/-! ## The tasks -/

/-- Where a live worker is. -/
inductive WorkerAt : Type where
  /-- `acquire_live` -/
  | acquire : WorkerAt
  /-- looking for the engine, or creating it -/
  | initEngine : WorkerAt
  /-- `is_model_loaded` -/
  | checkLoaded : WorkerAt
  /-- `get_current_model` -/
  | readModel : WorkerAt
  /-- which model to use; the model that is loaded -/
  | resolve : Option String → WorkerAt
  /-- `load_model` of a model -/
  | load : String → LoadPc → WorkerAt
  /-- waiting for a chunk -/
  | receive : WorkerAt
  /-- looking for the engine, before a preview -/
  | lookForEngine : WorkerAt
  /-- `is_model_loaded`, before a decode -/
  | checkDecode : WorkerAt
  /-- a decode -/
  | decode : DecodePc → WorkerAt
  /-- dropping the lease -/
  | release : WorkerAt
  deriving DecidableEq

/-- Where a batch job is. -/
inductive BatchAt : Type where
  /-- acquiring the guard of its kind -/
  | acquireGuard : BatchAt
  /-- looking for the engine -/
  | readEngine : BatchAt
  /-- which model to use -/
  | readTarget : BatchAt
  /-- `get_current_model` -/
  | readModel : String → BatchAt
  /-- `is_live_leased`, before a load; the target and the model that is loaded -/
  | checkLoad : String → Option String → BatchAt
  /-- `wait_until_free`, before a load -/
  | waitLoad : String → WaitPc → BatchAt
  /-- `discover_models` -/
  | discover : String → BatchAt
  /-- `load_model` -/
  | load : String → LoadPc → BatchAt
  /-- the next segment -/
  | transcribe : BatchAt
  /-- a decode -/
  | decode : DecodePc → BatchAt
  /-- `is_recording` in `unload_engine_after_batch` -/
  | checkRecording : BatchAt
  /-- `is_live_leased` in `unload_engine_after_batch` -/
  | checkUnload : BatchAt
  /-- `wait_until_free` in `unload_engine_after_batch` -/
  | waitUnload : WaitPc → BatchAt
  /-- looking for the engine to unload -/
  | findEngine : BatchAt
  /-- `unload_model` -/
  | unload : UnloadPc → BatchAt
  /-- dropping the guard -/
  | releaseGuard : BatchAt
  deriving DecidableEq

/-- A task that uses the engine. -/
inductive EngineTask : Type where
  /-- a task that does not exist -/
  | free : EngineTask
  /-- a live worker -/
  | worker : DecodePurpose → WorkerAt → EngineTask
  /-- a batch job, with the model that was requested -/
  | batch : BatchKind → Option String → BatchAt → EngineTask
  /-- a task that has returned -/
  | finished : EngineTask

/-- The calls from outside. -/
inductive EngineCall : Type where
  /-- a recording starts a live worker -/
  | worker : DecodePurpose → EngineCall
  /-- a batch job is started -/
  | batch : BatchKind → Option String → EngineCall

/-- Where a live worker goes once it has the lease: only the final path sets the engine up. -/
def DecodePurpose.afterAcquire : DecodePurpose → WorkerAt
  | .finalPath => .initEngine
  | .partialPath => .receive

/-- Where it goes with a chunk: a preview looks for the engine each time. -/
def DecodePurpose.onChunk : DecodePurpose → WorkerAt
  | .finalPath => .checkDecode
  | .partialPath => .lookForEngine

/-- Which model `get_or_init_whisper` of the live path loads beside the current one: none if it
fails, and `some none` if it keeps what is loaded. -/
def EngineEnv.resolveModel (env : EngineEnv) (current : Option String) : Option (Option String) :=
  match env.live, current with
  | .otherProvider, some _ => some none
  | .otherProvider, none => none
  | .noModel, some _ => some none
  | _, _ => env.loadable.map fun target => if current = some target then none else some target

namespace EngineLease

/-- A step to another point. -/
def goTo (s : SharedEngine) (task : EngineTask) : Option (Tasks.Move SharedEngine EngineTask) :=
  some ⟨s, task, none⟩

/-- A step inside a program that works on the engine: `within` is where the task is while it lasts,
and `after` where it goes when it ends. -/
def through {Pc : Type} (s : SharedEngine) (within : Pc → EngineTask) (after : Bool → EngineTask) :
    Option (WhisperEngine × Goes Pc) → Option (Tasks.Move SharedEngine EngineTask)
  | some (engine, .to pc) => goTo { s with engine } (within pc)
  | some (engine, .ends ok) => goTo { s with engine } (after ok)
  | none => none

/-- A live worker. -/
def workerStep (purpose : DecodePurpose) (env : EngineEnv) (s : SharedEngine) :
    WorkerAt → Option (Tasks.Move SharedEngine EngineTask)
  | .acquire =>
    goTo { s with leaseCount := s.leaseCount + 1 } (.worker purpose purpose.afterAcquire)
  | .initEngine =>
    if s.initialized then goTo s (.worker purpose .checkLoaded)
    else if env.ok then goTo { s with initialized := true } (.worker purpose .checkLoaded)
    else goTo s (.worker purpose .release)
  | .checkLoaded =>
    if s.engine.contextLocked then none
    else goTo s (.worker purpose
      (if s.engine.currentContext.isSome then .readModel else .resolve none))
  | .readModel =>
    if s.engine.modelLocked then none
    else goTo s (.worker purpose (.resolve s.engine.currentModel))
  | .resolve current =>
    match env.resolveModel current with
    | some (some target) => goTo s (.worker purpose (.load target .lookUp))
    | some none => goTo s (.worker purpose .receive)
    | none => goTo s (.worker purpose .release)
  | .load target pc =>
    through s (fun pc' => .worker purpose (.load target pc'))
      (fun ok => .worker purpose (if ok then .receive else .release))
      (s.engine.loadStep target env pc)
  | .receive =>
    goTo s (.worker purpose (if env.more then purpose.onChunk else .release))
  | .lookForEngine =>
    goTo s (.worker purpose (if s.initialized then .checkDecode else .receive))
  | .checkDecode =>
    if s.engine.contextLocked then none
    else goTo s (.worker purpose
      (if s.engine.currentContext.isSome then .decode .lookInPool else .receive))
  | .decode pc =>
    through s (fun pc' => .worker purpose (.decode pc')) (fun _ => .worker purpose .receive)
      (s.engine.decodeStep purpose env pc)
  | .release => goTo { s with leaseCount := s.leaseCount - 1 } .finished

/-- A batch job. -/
def batchStep (kind : BatchKind) (requested : Option String) (env : EngineEnv) (s : SharedEngine) :
    BatchAt → Option (Tasks.Move SharedEngine EngineTask)
  | .acquireGuard =>
    if s.inProgress kind then goTo s .finished
    else goTo { s with inProgress := Function.update s.inProgress kind true }
      (.batch kind requested (if env.ok then .readEngine else .checkRecording))
  | .readEngine =>
    goTo s (.batch kind requested (if s.initialized then .readTarget else .checkRecording))
  | .readTarget =>
    match requested.or env.configured with
    | some target => goTo s (.batch kind requested (.readModel target))
    | none => goTo s (.batch kind requested .checkRecording)
  | .readModel target =>
    if s.engine.modelLocked then none
    else goTo s (.batch kind requested
      (if s.engine.currentModel = some target then .transcribe
      else .checkLoad target s.engine.currentModel))
  | .checkLoad target current =>
    if s.isLiveLeased then
      -- an import makes do with the model that is loaded
      goTo s (.batch kind requested (if kind = .audioImport && current.isSome then .transcribe
        else .waitLoad target .first))
    else goTo s (.batch kind requested (.discover target))
  | .waitLoad target pc =>
    match s.waitStep env pc with
    | .to pc' => goTo s (.batch kind requested (.waitLoad target pc'))
    | .ends true => goTo s (.batch kind requested (.discover target))
    | .ends false => goTo s (.batch kind requested .checkRecording)
  | .discover target => goTo s (.batch kind requested (.load target .lookUp))
  | .load target pc =>
    through s (fun pc' => .batch kind requested (.load target pc'))
      (fun ok => .batch kind requested (if ok then .transcribe else .checkRecording))
      (s.engine.loadStep target env pc)
  | .transcribe =>
    goTo s (.batch kind requested (if env.more then .decode .lookInPool else .checkRecording))
  | .decode pc =>
    through s (fun pc' => .batch kind requested (.decode pc'))
      (fun _ => .batch kind requested .transcribe) (s.engine.decodeStep .finalPath env pc)
  | .checkRecording =>
    goTo s (.batch kind requested (if env.recording then .releaseGuard else .checkUnload))
  | .checkUnload =>
    goTo s (.batch kind requested (if s.isLiveLeased then .waitUnload .first else .findEngine))
  | .waitUnload pc =>
    match s.waitStep env pc with
    | .to pc' => goTo s (.batch kind requested (.waitUnload pc'))
    | .ends true => goTo s (.batch kind requested .findEngine)
    | .ends false => goTo s (.batch kind requested .releaseGuard)
  | .findEngine =>
    goTo s (.batch kind requested (if s.initialized then .unload .takeContext else .releaseGuard))
  | .unload pc =>
    through s (fun pc' => .batch kind requested (.unload pc'))
      (fun _ => .batch kind requested .releaseGuard) (s.engine.unloadStep pc)
  | .releaseGuard =>
    goTo { s with inProgress := Function.update s.inProgress kind false } .finished

/-- How a call from outside begins. -/
def begins : EngineCall → SharedEngine → Option (SharedEngine × EngineTask)
  | .worker purpose, s => some (s, .worker purpose .acquire)
  | .batch kind requested, s => some (s, .batch kind requested .acquireGuard)

/-- One step of a task. -/
def step (env : EngineEnv) (s : SharedEngine) :
    EngineTask → Option (Tasks.Move SharedEngine EngineTask)
  | .free => none
  | .worker purpose pc => workerStep purpose env s pc
  | .batch kind requested pc => batchStep kind requested env s pc
  | .finished => none

/-- The live workers and batch jobs. -/
def program : Tasks.Program SharedEngine EngineTask EngineEnv EngineCall where
  isFree task := match task with | .free => true | _ => false
  begins := begins
  step := step

/-- The configuration at program start. -/
def start : Tasks.Config SharedEngine EngineTask := ⟨.initial, fun _ => .free⟩

end EngineLease

end MeetilyLocal
