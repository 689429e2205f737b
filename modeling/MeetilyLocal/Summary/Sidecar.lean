import MeetilyLocal.Library.Tasks

/-!
# The sidecar

`SidecarManager` of `summary/summary_engine/sidecar.rs`, with the helper processes it spawns
(`main` of `llama-helper`, the lines of `llama-protocol`). `ensure_running`, `send_request`,
`shutdown`, `shutdown_gracefully` and the background loops of every spawn run as tasks that are
interleaved between the sections of the locks and the reads and writes of the atomics; each helper
is a task as well.

Spawns are numbered, and the handles and the pipes are those of a spawn. Requests, pings and the
shutdown lines are numbered as they are made; a line in a pipe carries the numbers of those that it
is made of, and an answer those of the line it answers. Time is left to the outside: whether a
deadline has passed, and whether the sidecar has been idle for long enough.
-/

namespace MeetilyLocal

namespace Sidecar

/-! ## The helper -/

/-- `Request`, without its parameters -/
inductive Request : Type where
  /-- generate a text -/
  | generate : Request
  /-- answer at once -/
  | ping : Request
  /-- exit -/
  | shutdown : Request
  deriving DecidableEq

/-- `Response` -/
inductive Response : Type where
  /-- a piece of the text -/
  | chunk : String → Response
  /-- the text, and maybe an error -/
  | response : String → Option String → Response
  /-- to a ping -/
  | pong : Response
  /-- to a shutdown -/
  | goodbye : Response
  /-- to a line that is no request -/
  | error : String → Response
  deriving DecidableEq

/-- A line on the way to the helper. -/
structure Line : Type where
  /-- the exchanges whose text it is made of -/
  exchanges : List ℕ
  /-- what it is parsed as, if it can be -/
  request : Option Request
  deriving DecidableEq

/-- A line on the way back. -/
inductive Output : Type where
  /-- an answer to a line made of these exchanges -/
  | answer : List ℕ → Response → Output
  /-- something that cannot be parsed -/
  | unparseable : Output
  deriving DecidableEq

/-- A helper process and its pipes. -/
structure Process : Type where
  /-- it has not exited -/
  alive : Bool
  /-- the lines it has not read -/
  input : List Line
  /-- the exchanges whose text stands before the end of a line -/
  fragment : List ℕ
  /-- the line that it is generating a text for -/
  serving : Option (List ℕ)
  /-- the lines that were not read from it -/
  output : List Output
  /-- the beginning of its next line was read and thrown away -/
  torn : Bool

namespace Process

/-- A new process. -/
def new : Process := ⟨true, [], [], none, [], false⟩

/-- A whole line is written to it: what stands before it spoils it. -/
def writeLine (p : Process) (exchange : ℕ) (request : Request) : Process :=
  { p with
    input := p.input ++
      [⟨p.fragment ++ [exchange], if p.fragment = [] then some request else none⟩]
    fragment := [] }

/-- A part of a line is written to it. -/
def writePart (p : Process) (exchange : ℕ) : Process :=
  { p with fragment := p.fragment ++ [exchange] }

/-- The beginning of its next line is read and thrown away; what is left cannot be parsed. -/
def tear (p : Process) : Process :=
  match p.output with
  | [] => { p with torn := true }
  | _ :: rest => { p with output := .unparseable :: rest }

/-- It writes a line. -/
def emit (p : Process) (line : Output) : Process :=
  { p with output := p.output ++ [if p.torn then .unparseable else line], torn := false }

end Process

/-- What a helper does next. -/
inductive HelperAct : Type where
  /-- it reads a line, or finishes its text, with or without an error -/
  | goesOn : String → Option String → HelperAct
  /-- it writes a chunk -/
  | streams : String → HelperAct
  /-- something else is written to its standard output -/
  | prints : HelperAct
  /-- it exits -/
  | exits : HelperAct

/-- The loop of `main`: requests are served one by one. -/
def Process.serve (p : Process) : HelperAct → Option Process
  | .exits => some { p with alive := false }
  | .prints => some (p.emit .unparseable)
  | .streams text => p.serving.map fun exchanges => p.emit (.answer exchanges (.chunk text))
  | .goesOn text error =>
    match p.serving with
    | some exchanges =>
      some { p.emit (.answer exchanges (.response text error)) with serving := none }
    | none =>
      match p.input with
      | [] => none
      | line :: rest =>
        let p' := { p with input := rest }
        match line.request with
        | some .generate => some { p' with serving := some line.exchanges }
        | some .ping => some (p'.emit (.answer line.exchanges .pong))
        | some .shutdown => some { p'.emit (.answer line.exchanges .goodbye) with alive := false }
        | none => some (p'.emit (.answer line.exchanges (.error text)))

/-! ## The manager -/

/-- What `send_request` has returned, or forwarded as a chunk. -/
structure Delivery : Type where
  /-- the request -/
  exchange : ℕ
  /-- the exchanges that the helper answered -/
  answers : List ℕ
  /-- the answer -/
  response : Response
  deriving DecidableEq

/-- `SidecarManager`, with the processes and what requests have received. -/
structure SidecarManager : Type where
  /-- `child_process` -/
  childProcess : Option ℕ
  /-- a task has it locked -/
  childLocked : Bool
  /-- `stdin_writer` -/
  stdinWriter : Option ℕ
  /-- `stdout_reader` -/
  stdoutReader : Option ℕ
  /-- a task has it locked -/
  stdoutLocked : Bool
  /-- `is_healthy` -/
  isHealthy : Bool
  /-- `should_shutdown` -/
  shouldShutdown : Bool
  /-- `active_request_count` -/
  activeRequestCount : ℕ
  /-- `request_lock` -/
  requestLocked : Bool
  /-- `spawn_generation` -/
  spawnGeneration : ℕ
  /-- `current_model_path`, with the spawn that stored it -/
  currentModelPath : Option (String × ℕ)
  /-- the processes by the number of their spawn -/
  processes : ℕ → Process
  /-- how many were spawned -/
  spawned : ℕ
  /-- how many exchanges there were -/
  exchanges : ℕ
  /-- what requests have received -/
  delivered : List Delivery

namespace SidecarManager

/-- `SidecarManager::new` -/
def new : SidecarManager :=
  ⟨none, false, none, none, false, false, false, 0, false, 0, none, fun _ => .new, 0, 0, []⟩

/-- What becomes of a process. -/
def updateProcess (s : SidecarManager) (p : ℕ) (f : Process → Process) : SidecarManager :=
  { s with processes := Function.update s.processes p (f (s.processes p)) }

/-- A request receives an answer. -/
def deliver (s : SidecarManager) (exchange : ℕ) (answers : List ℕ) (response : Response) :
    SidecarManager :=
  { s with delivered := ⟨exchange, answers, response⟩ :: s.delivered }

end SidecarManager

/-- How much of a line is written before the writer fails or is dropped. -/
inductive Written : Type where
  /-- all of it -/
  | whole : Written
  /-- a part of it -/
  | part : Written
  /-- nothing -/
  | nothing : Written
  deriving DecidableEq

/-- What the outside decides at a step. -/
structure SidecarEnv : Type where
  /-- how much of a line is written -/
  written : Written
  /-- the operating system refuses -/
  failed : Bool
  /-- the deadline has passed -/
  timedOut : Bool
  /-- the beginning of the next line has been read when the reader is dropped -/
  torn : Bool
  /-- the future of the request is dropped -/
  dropped : Bool
  /-- the sidecar has been idle for long enough -/
  idle : Bool
  /-- what the helper does -/
  helper : HelperAct

/-- Where `shutdown` is. -/
inductive ShutdownPc : Type where
  /-- before the flag is set -/
  | setFlag : ShutdownPc
  /-- before it looks at the health -/
  | checkHealthy : ShutdownPc
  /-- before the shutdown line is written -/
  | writeShutdown : ShutdownPc
  /-- before the child is taken -/
  | takeChild : ShutdownPc
  /-- waiting for the child -/
  | wait : ℕ → ShutdownPc
  /-- before the child is killed -/
  | kill : ℕ → ShutdownPc
  /-- before the writer is cleared -/
  | clearStdin : ShutdownPc
  /-- before the reader is cleared -/
  | clearStdout : ShutdownPc
  /-- before the model is cleared -/
  | clearModel : ShutdownPc
  /-- before the health is cleared -/
  | setUnhealthy : ShutdownPc

/-- Where `spawn` is. -/
inductive SpawnPc : Type where
  /-- in `shutdown` -/
  | shutdown : ShutdownPc → SpawnPc
  /-- before the process is started -/
  | fork : SpawnPc
  /-- before the child is stored -/
  | storeChild : ℕ → SpawnPc
  /-- before the writer is stored -/
  | storeStdin : ℕ → SpawnPc
  /-- before the reader is stored -/
  | storeStdout : ℕ → SpawnPc
  /-- before the model is stored -/
  | storeModel : ℕ → SpawnPc
  /-- before the health is set -/
  | setHealthy : SpawnPc
  /-- before the flag is cleared -/
  | clearFlag : SpawnPc
  /-- before the generation is bumped -/
  | bump : SpawnPc
  /-- before the health check loop is started -/
  | startHealth : ℕ → SpawnPc
  /-- before the idle check loop is started -/
  | startIdle : ℕ → SpawnPc

/-- Where the round trip of a request or a ping is. -/
inductive ExchangePc : Type where
  /-- before the line is written -/
  | write : ExchangePc
  /-- before the reader is locked, with the process that was written to -/
  | read : ℕ → ExchangePc
  /-- reading a line, with the process that is read from as well -/
  | readLine : ℕ → ℕ → ExchangePc

/-- How a step of a round trip ends. -/
inductive Heard : Type where
  /-- it goes on -/
  | goesOn : ExchangePc → Heard
  /-- a line was read; with the process that was written to -/
  | line : ℕ → Output → Heard
  /-- it failed -/
  | failed : Heard
  /-- the deadline has passed -/
  | timedOut : Heard

/-- Where `send_request` is. -/
inductive RequestPc : Type where
  /-- before it is counted -/
  | begin : RequestPc
  /-- before the request lock -/
  | lock : RequestPc
  /-- in the round trip -/
  | exchange : ExchangePc → RequestPc
  /-- in `shutdown`, after the deadline -/
  | timedOut : ShutdownPc → RequestPc
  /-- before it returns an answer -/
  | answered : List ℕ → Response → RequestPc
  /-- before the request lock is released -/
  | unlock : RequestPc
  /-- before it is no longer counted -/
  | leave : RequestPc

/-- Where the health check loop is. -/
inductive HealthPc : Type where
  /-- before it looks at the shutdown flag -/
  | tick : HealthPc
  /-- before it looks at the generation -/
  | current : HealthPc
  /-- before it looks at the health -/
  | checkHealthy : HealthPc
  /-- before it looks at the count -/
  | checkActive : HealthPc
  /-- `send_ping`, before it tries the request lock -/
  | tryLock : HealthPc
  /-- in the round trip -/
  | exchange : ℕ → ExchangePc → HealthPc
  /-- before the request lock is released, and whether the answer was a pong -/
  | unlock : Bool → HealthPc
  /-- before the health is cleared -/
  | setUnhealthy : HealthPc

/-- Where the idle check loop is. -/
inductive IdlePc : Type where
  /-- before it looks at the shutdown flag -/
  | tick : IdlePc
  /-- before it looks at the generation -/
  | current : IdlePc
  /-- before it looks at the count -/
  | checkActive : IdlePc
  /-- before it looks at the last activity -/
  | checkIdle : IdlePc
  /-- in `shutdown` -/
  | shutdown : ShutdownPc → IdlePc

/-- Where `shutdown_gracefully` is. -/
inductive GracefulPc : Type where
  /-- before the flag is set -/
  | setFlag : GracefulPc
  /-- waiting for the active requests -/
  | poll : GracefulPc
  /-- in `shutdown` -/
  | shutdown : ShutdownPc → GracefulPc

/-- A call, a background loop or a helper. -/
inductive SidecarTask : Type where
  /-- a task that does not exist -/
  | free : SidecarTask
  /-- `ensure_running`, before it looks at the model and the health -/
  | ensure : String → SidecarTask
  /-- `spawn` -/
  | spawn : String → SpawnPc → SidecarTask
  /-- `shutdown` -/
  | shutdown : ShutdownPc → SidecarTask
  /-- `shutdown_gracefully` -/
  | graceful : GracefulPc → SidecarTask
  /-- `send_request` -/
  | request : ℕ → Request → RequestPc → SidecarTask
  /-- the health check loop of a generation -/
  | health : ℕ → HealthPc → SidecarTask
  /-- the idle check loop of a generation -/
  | idle : ℕ → IdlePc → SidecarTask
  /-- the helper of a spawn -/
  | helper : ℕ → SidecarTask
  /-- a task that has ended -/
  | finished : SidecarTask

/-- The calls from outside. -/
inductive SidecarCall : Type where
  /-- `ensure_running` -/
  | ensureRunning : String → SidecarCall
  /-- `shutdown` -/
  | shutdown : SidecarCall
  /-- `shutdown_gracefully` -/
  | shutdownGracefully : SidecarCall
  /-- `send_request` -/
  | sendRequest : Request → SidecarCall

/-! ## The steps -/

/-- Some of a line is written to a process. -/
def SidecarManager.write (s : SidecarManager) (p exchange : ℕ) (request : Request) :
    Written → SidecarManager
  | .whole => s.updateProcess p (·.writeLine exchange request)
  | .part => s.updateProcess p (·.writePart exchange)
  | .nothing => s

/-- `shutdown`; the second part is none when it returns. -/
def shutdownStep (env : SidecarEnv) (s : SidecarManager) :
    ShutdownPc → Option (SidecarManager × Option ShutdownPc)
  | .setFlag => some ({ s with shouldShutdown := true }, some .checkHealthy)
  | .checkHealthy => some (s, some (if s.isHealthy then .writeShutdown else .takeChild))
  | .writeShutdown =>
    -- errors are ignored
    match s.stdinWriter with
    | some p =>
      some ({ s.write p s.exchanges .shutdown env.written with exchanges := s.exchanges + 1 },
        some .takeChild)
    | none => some (s, some .takeChild)
  | .takeChild =>
    if s.childLocked then none
    else
      match s.childProcess with
      | some p => some ({ s with childProcess := none, childLocked := true }, some (.wait p))
      | none => some (s, some .clearStdin)
  | .wait p =>
    if env.failed || !(s.processes p).alive then
      some ({ s with childLocked := false }, some .clearStdin)
    else if env.timedOut then some (s, some (.kill p))
    else none
  | .kill p =>
    some ({ (if env.failed then s else s.updateProcess p fun process =>
        { process with alive := false }) with childLocked := false }, some .clearStdin)
  | .clearStdin => some ({ s with stdinWriter := none }, some .clearStdout)
  | .clearStdout =>
    if s.stdoutLocked then none else some ({ s with stdoutReader := none }, some .clearModel)
  | .clearModel => some ({ s with currentModelPath := none }, some .setUnhealthy)
  | .setUnhealthy => some ({ s with isHealthy := false }, none)

/-- A step of `shutdown` inside another task. -/
def throughShutdown (within : ShutdownPc → SidecarTask) (after : SidecarTask) :
    Option (SidecarManager × Option ShutdownPc) → Option (Tasks.Move SidecarManager SidecarTask)
  | some (s, some pc) => some ⟨s, within pc, none⟩
  | some (s, none) => some ⟨s, after, none⟩
  | none => none

/-- `spawn` -/
def spawnStep (env : SidecarEnv) (s : SidecarManager) (model : String) :
    SpawnPc → Option (Tasks.Move SidecarManager SidecarTask)
  | .shutdown pc =>
    throughShutdown (.spawn model <| .shutdown ·) (.spawn model .fork) (shutdownStep env s pc)
  | .fork =>
    if env.failed then some ⟨s, .finished, none⟩
    else
      let p := s.spawned
      some ⟨{ s.updateProcess p fun _ => .new with spawned := p + 1 },
        .spawn model (.storeChild p), some (.helper p)⟩
  | .storeChild p =>
    if s.childLocked then none
    else some ⟨{ s with childProcess := some p }, .spawn model (.storeStdin p), none⟩
  | .storeStdin p => some ⟨{ s with stdinWriter := some p }, .spawn model (.storeStdout p), none⟩
  | .storeStdout p =>
    if s.stdoutLocked then none
    else some ⟨{ s with stdoutReader := some p }, .spawn model (.storeModel p), none⟩
  | .storeModel p =>
    some ⟨{ s with currentModelPath := some (model, p) }, .spawn model .setHealthy, none⟩
  | .setHealthy => some ⟨{ s with isHealthy := true }, .spawn model .clearFlag, none⟩
  | .clearFlag => some ⟨{ s with shouldShutdown := false }, .spawn model .bump, none⟩
  | .bump =>
    some ⟨{ s with spawnGeneration := s.spawnGeneration + 1 },
      .spawn model (.startHealth (s.spawnGeneration + 1)), none⟩
  | .startHealth generation =>
    some ⟨s, .spawn model (.startIdle generation), some (.health generation .tick)⟩
  | .startIdle generation => some ⟨s, .finished, some (.idle generation .tick)⟩

/-- The reader is unlocked; the beginning of a line may be lost. -/
def SidecarManager.dropRead (s : SidecarManager) (q : ℕ) (torn : Bool) : SidecarManager :=
  { s.updateProcess q fun process => if torn then process.tear else process with
    stdoutLocked := false }

/-- The round trip that `send_request` and `send_ping` make under the request lock. -/
def exchangeStep (env : SidecarEnv) (s : SidecarManager) (exchange : ℕ) (request : Request) :
    ExchangePc → Option (SidecarManager × Heard)
  | .write =>
    match s.stdinWriter with
    | none => some (s, .failed)
    | some p =>
      some (s.write p exchange request env.written,
        match env.written with
        | .whole => .goesOn (.read p)
        | _ => .failed)
  | .read p =>
    if env.timedOut then some (s, .timedOut)
    else if s.stdoutLocked then none
    else
      match s.stdoutReader with
      | none => some (s, .failed)
      | some q => some ({ s with stdoutLocked := true }, .goesOn (.readLine p q))
  | .readLine p q =>
    match (s.processes q).output with
    | line :: rest =>
      some ({ s.updateProcess q fun process => { process with output := rest } with
        stdoutLocked := false }, .line p line)
    | [] =>
      if env.timedOut then some (s.dropRead q env.torn, .timedOut)
      else if (s.processes q).alive then none
      else some ({ s with stdoutLocked := false }, .failed)

/-- The future of a request is dropped: its locks are released, and it goes on with the guard. -/
def dropRequest (env : SidecarEnv) (s : SidecarManager) (exchange : ℕ) (request : Request) :
    RequestPc → SidecarManager × RequestPc
  | .exchange .write =>
    (match s.stdinWriter with
      | some p => s.write p exchange request env.written
      | none => s, .unlock)
  | .exchange (.readLine _ q) => (s.dropRead q env.torn, .unlock)
  | .timedOut (.wait _) | .timedOut (.kill _) => ({ s with childLocked := false }, .unlock)
  | .exchange (.read _) | .timedOut _ | .answered _ _ => (s, .unlock)
  | .lock => (s, .leave)
  | pc => (s, pc)

/-- `send_request` -/
def requestStep (env : SidecarEnv) (s : SidecarManager) (exchange : ℕ) (request : Request) :
    RequestPc → Option (Tasks.Move SidecarManager SidecarTask)
  | .begin =>
    some ⟨{ s with activeRequestCount := s.activeRequestCount + 1 },
      .request exchange request .lock, none⟩
  | .lock =>
    if s.requestLocked then none
    else
      some ⟨{ s with requestLocked := true }, .request exchange request (.exchange .write), none⟩
  | .exchange pc =>
    match exchangeStep env s exchange request pc with
    | some (s', .goesOn pc') => some ⟨s', .request exchange request (.exchange pc'), none⟩
    | some (s', .line p (.answer answers (.chunk text))) =>
      some ⟨s'.deliver exchange answers (.chunk text),
        .request exchange request (.exchange (.read p)), none⟩
    | some (s', .line _ (.answer answers response)) =>
      some ⟨s', .request exchange request (.answered answers response), none⟩
    | some (s', .line _ .unparseable) | some (s', .failed) =>
      some ⟨s', .request exchange request .unlock, none⟩
    | some (s', .timedOut) => some ⟨s', .request exchange request (.timedOut .setFlag), none⟩
    | none => none
  | .timedOut pc =>
    throughShutdown (.request exchange request <| .timedOut ·) (.request exchange request .unlock)
      (shutdownStep env s pc)
  | .answered answers response =>
    some ⟨s.deliver exchange answers response, .request exchange request .unlock, none⟩
  | .unlock => some ⟨{ s with requestLocked := false }, .request exchange request .leave, none⟩
  | .leave =>
    some ⟨{ s with activeRequestCount := s.activeRequestCount - 1 }, .finished, none⟩

/-- A request may be dropped wherever it waits. -/
def requestOrDrop (env : SidecarEnv) (s : SidecarManager) (exchange : ℕ) (request : Request)
    (pc : RequestPc) : Option (Tasks.Move SidecarManager SidecarTask) :=
  if env.dropped then
    let dropped := dropRequest env s exchange request pc
    some ⟨dropped.1, .request exchange request dropped.2, none⟩
  else requestStep env s exchange request pc

/-- The health check loop -/
def healthStep (env : SidecarEnv) (s : SidecarManager) (generation : ℕ) :
    HealthPc → Option (Tasks.Move SidecarManager SidecarTask)
  | .tick => some ⟨s, if s.shouldShutdown then .finished else .health generation .current, none⟩
  | .current =>
    some ⟨s, if s.spawnGeneration = generation then .health generation .checkHealthy else .finished,
      none⟩
  | .checkHealthy =>
    some ⟨s, .health generation (if s.isHealthy then .checkActive else .tick), none⟩
  | .checkActive =>
    some ⟨s, .health generation (if 0 < s.activeRequestCount then .tick else .tryLock), none⟩
  | .tryLock =>
    if s.requestLocked then some ⟨s, .health generation .tick, none⟩
    else some ⟨{ s with requestLocked := true, exchanges := s.exchanges + 1 },
      .health generation (.exchange s.exchanges .write), none⟩
  | .exchange exchange pc =>
    match exchangeStep env s exchange .ping pc with
    | some (s', .goesOn pc') => some ⟨s', .health generation (.exchange exchange pc'), none⟩
    | some (s', .line _ (.answer _ .pong)) => some ⟨s', .health generation (.unlock true), none⟩
    | some (s', _) => some ⟨s', .health generation (.unlock false), none⟩
    | none => none
  | .unlock ok =>
    some ⟨{ s with requestLocked := false },
      .health generation (if ok then .tick else .setUnhealthy), none⟩
  | .setUnhealthy => some ⟨{ s with isHealthy := false }, .health generation .tick, none⟩

/-- The idle check loop -/
def idleStep (env : SidecarEnv) (s : SidecarManager) (generation : ℕ) :
    IdlePc → Option (Tasks.Move SidecarManager SidecarTask)
  | .tick => some ⟨s, if s.shouldShutdown then .finished else .idle generation .current, none⟩
  | .current =>
    some ⟨s, if s.spawnGeneration = generation then .idle generation .checkActive else .finished,
      none⟩
  | .checkActive =>
    some ⟨s, .idle generation (if 0 < s.activeRequestCount then .tick else .checkIdle), none⟩
  | .checkIdle =>
    some ⟨s, .idle generation (if env.idle then .shutdown .setFlag else .tick), none⟩
  | .shutdown pc =>
    throughShutdown (.idle generation <| .shutdown ·) .finished (shutdownStep env s pc)

/-- `shutdown_gracefully` -/
def gracefulStep (env : SidecarEnv) (s : SidecarManager) :
    GracefulPc → Option (Tasks.Move SidecarManager SidecarTask)
  | .setFlag => some ⟨{ s with shouldShutdown := true }, .graceful .poll, none⟩
  | .poll =>
    some ⟨s, .graceful
      (if s.activeRequestCount = 0 ∨ env.timedOut then .shutdown .setFlag else .poll), none⟩
  | .shutdown pc => throughShutdown (.graceful <| .shutdown ·) .finished (shutdownStep env s pc)

/-- The helper of a spawn -/
def helperStep (env : SidecarEnv) (s : SidecarManager) (p : ℕ) :
    Option (Tasks.Move SidecarManager SidecarTask) :=
  if (s.processes p).alive then
    ((s.processes p).serve env.helper).map fun process =>
      ⟨s.updateProcess p fun _ => process, .helper p, none⟩
  else some ⟨s, .finished, none⟩

/-- How a call from outside begins. -/
def begins : SidecarCall → SidecarManager → Option (SidecarManager × SidecarTask)
  | .ensureRunning model, s => some (s, .ensure model)
  | .shutdown, s => some (s, .shutdown .setFlag)
  | .shutdownGracefully, s => some (s, .graceful .setFlag)
  | .sendRequest request, s =>
    some ({ s with exchanges := s.exchanges + 1 }, .request s.exchanges request .begin)

/-- One step of a task. -/
def step (env : SidecarEnv) (s : SidecarManager) :
    SidecarTask → Option (Tasks.Move SidecarManager SidecarTask)
  | .ensure model =>
    some ⟨s, if s.currentModelPath.map Prod.fst = some model ∧ s.isHealthy then .finished
      else .spawn model (.shutdown .setFlag), none⟩
  | .spawn model pc => spawnStep env s model pc
  | .shutdown pc => throughShutdown .shutdown .finished (shutdownStep env s pc)
  | .graceful pc => gracefulStep env s pc
  | .request exchange request pc => requestOrDrop env s exchange request pc
  | .health generation pc => healthStep env s generation pc
  | .idle generation pc => idleStep env s generation pc
  | .helper p => helperStep env s p
  | .free | .finished => none

/-- The calls, the loops and the helpers. -/
def program : Tasks.Program SidecarManager SidecarTask SidecarEnv SidecarCall where
  isFree task := match task with | .free => true | _ => false
  begins := begins
  step := step

/-- The program start. -/
def start : Tasks.Config SidecarManager SidecarTask := ⟨.new, fun _ => .free⟩

/-! ## What a step leaves alone -/

/-- Neither the requests nor the lock that they take turns with change. -/
structure SidecarManager.SameRequests (s s' : SidecarManager) : Prop where
  /-- `active_request_count` -/
  activeRequestCount : s'.activeRequestCount = s.activeRequestCount
  /-- `request_lock` -/
  requestLocked : s'.requestLocked = s.requestLocked
  /-- what requests have received -/
  delivered : s'.delivered = s.delivered

namespace SidecarManager

theorem SameRequests.refl {s : SidecarManager} : s.SameRequests s := ⟨rfl, rfl, rfl⟩

theorem sameRequests_write {s : SidecarManager} {p exchange : ℕ} {request : Request}
    {written : Written} : s.SameRequests (s.write p exchange request written) := by
  cases written <;> exact ⟨rfl, rfl, rfl⟩

end SidecarManager

variable {env : SidecarEnv} {s s' : SidecarManager} {move : Tasks.Move SidecarManager SidecarTask}

theorem sameRequests_shutdownStep {pc : ShutdownPc} {pc' : Option ShutdownPc}
    (h : shutdownStep env s pc = some (s', pc')) : s.SameRequests s' := by
  cases pc with
  | writeShutdown =>
    rw [shutdownStep] at h
    split at h
    · next p _ =>
      cases h
      have hwrite : s.SameRequests (s.write p s.exchanges .shutdown env.written) :=
        SidecarManager.sameRequests_write
      exact ⟨hwrite.activeRequestCount, hwrite.requestLocked, hwrite.delivered⟩
    · cases h
      exact .refl
  | takeChild =>
    rw [shutdownStep] at h
    split at h
    · cases h
    · split at h <;> cases h <;> exact ⟨rfl, rfl, rfl⟩
  | wait p =>
    rw [shutdownStep] at h
    split at h
    · cases h
      exact ⟨rfl, rfl, rfl⟩
    · split at h
      · cases h
        exact .refl
      · cases h
  | kill p =>
    cases h
    rcases env.failed with _ | _ <;> exact ⟨rfl, rfl, rfl⟩
  | clearStdout =>
    rw [shutdownStep] at h
    split at h <;> cases h
    exact ⟨rfl, rfl, rfl⟩
  | _ =>
    cases h
    exact ⟨rfl, rfl, rfl⟩

/-- A step of a `shutdown` inside another task. -/
theorem throughShutdown_cases {within : ShutdownPc → SidecarTask} {after : SidecarTask}
    {result : Option (SidecarManager × Option ShutdownPc)}
    (h : throughShutdown within after result = some move) :
    ∃ pc', result = some (move.shared, pc') ∧ move.task = pc'.elim after within ∧
      move.spawned = none := by
  rcases result with _ | ⟨s', _ | pc'⟩ <;> cases h
  · exact ⟨none, rfl, rfl, rfl⟩
  · exact ⟨some pc', rfl, rfl, rfl⟩

/-- Where a request is after a step of its round trip. -/
inductive RequestPc.AfterExchange : RequestPc → Prop
  | exchange (pc : ExchangePc) : AfterExchange (.exchange pc)
  | answered (answers : List ℕ) (response : Response) : AfterExchange (.answered answers response)
  | timedOut : AfterExchange (.timedOut .setFlag)
  | unlock : AfterExchange .unlock

/-- A step of the round trip of a request, which receives a piece of an answer at most. -/
theorem exchange_of_requestStep {exchange : ℕ} {request : Request} {pc : ExchangePc}
    (h : requestStep env s exchange request (.exchange pc) = some move) :
    ∃ s' heard pc', exchangeStep env s exchange request pc = some (s', heard) ∧
      (move.shared = s' ∨ ∃ answers text, move.shared = s'.deliver exchange answers (.chunk text)) ∧
      pc'.AfterExchange ∧ move.task = .request exchange request pc' := by
  rw [requestStep] at h
  rcases hexchange : exchangeStep env s exchange request pc with _ | ⟨s', heard⟩
  · rw [hexchange] at h
    cases h
  · rw [hexchange] at h
    rcases heard with pc' | ⟨p, ⟨answers, response⟩ | _⟩ | _ | _
    case goesOn =>
      cases h
      exact ⟨s', _, _, rfl, .inl rfl, .exchange pc', rfl⟩
    case line.answer =>
      cases response with
      | chunk text =>
        cases h
        exact ⟨s', _, _, rfl, .inr ⟨answers, text, rfl⟩, .exchange (.read p), rfl⟩
      | _ =>
        cases h
        exact ⟨s', _, _, rfl, .inl rfl, .answered answers _, rfl⟩
    case timedOut =>
      cases h
      exact ⟨s', _, _, rfl, .inl rfl, .timedOut, rfl⟩
    all_goals
      cases h
      exact ⟨s', _, _, rfl, .inl rfl, .unlock, rfl⟩

/-- A step of the round trip of a ping. -/
theorem exchange_of_healthStep {generation exchange : ℕ} {pc : ExchangePc}
    (h : healthStep env s generation (.exchange exchange pc) = some move) :
    ∃ heard pc', exchangeStep env s exchange .ping pc = some (move.shared, heard) ∧
      ((∃ pc, pc' = .exchange exchange pc) ∨ ∃ ok, pc' = .unlock ok) ∧
      move.task = .health generation pc' := by
  rw [healthStep] at h
  rcases hexchange : exchangeStep env s exchange .ping pc with _ | ⟨s', heard⟩
  · rw [hexchange] at h
    cases h
  · rw [hexchange] at h
    rcases heard with pc' | ⟨p, ⟨answers, _ | _ | _ | _ | _⟩ | _⟩ | _ | _
    case goesOn =>
      cases h
      exact ⟨_, _, rfl, .inl ⟨pc', rfl⟩, rfl⟩
    all_goals
      cases h
      exact ⟨_, _, rfl, .inr ⟨_, rfl⟩, rfl⟩

theorem sameRequests_exchangeStep {exchange : ℕ} {request : Request} {pc : ExchangePc}
    {heard : Heard} (h : exchangeStep env s exchange request pc = some (s', heard)) :
    s.SameRequests s' := by
  cases pc with
  | write =>
    rw [exchangeStep] at h
    split at h <;> cases h
    · exact .refl
    · exact SidecarManager.sameRequests_write
  | read p =>
    rw [exchangeStep] at h
    split at h
    · cases h
      exact .refl
    · split at h
      · cases h
      · split at h <;> cases h <;> exact ⟨rfl, rfl, rfl⟩
  | readLine p q =>
    rw [exchangeStep] at h
    split at h
    · cases h
      exact ⟨rfl, rfl, rfl⟩
    · split at h
      · cases h
        exact ⟨rfl, rfl, rfl⟩
      · split at h <;> cases h
        exact ⟨rfl, rfl, rfl⟩

theorem sameRequests_dropRequest {exchange : ℕ} {request : Request} {pc : RequestPc} :
    s.SameRequests (dropRequest env s exchange request pc).1 := by
  rcases pc with _ | _ | (_ | _ | _) | pc | _ | _ | _
  case exchange.write =>
    simp only [dropRequest]
    split
    · exact SidecarManager.sameRequests_write
    · exact .refl
  case timedOut => cases pc <;> exact ⟨rfl, rfl, rfl⟩
  all_goals exact ⟨rfl, rfl, rfl⟩

theorem sameRequests_spawnStep {model : String} {pc : SpawnPc}
    (h : spawnStep env s model pc = some move) : s.SameRequests move.shared := by
  cases pc with
  | shutdown pc =>
    obtain ⟨pc', hstep, -, -⟩ := throughShutdown_cases h
    exact sameRequests_shutdownStep hstep
  | fork =>
    rw [spawnStep] at h
    split at h <;> cases h <;> exact ⟨rfl, rfl, rfl⟩
  | storeChild p =>
    rw [spawnStep] at h
    split at h <;> cases h
    exact ⟨rfl, rfl, rfl⟩
  | storeStdout p =>
    rw [spawnStep] at h
    split at h <;> cases h
    exact ⟨rfl, rfl, rfl⟩
  | _ =>
    cases h
    exact ⟨rfl, rfl, rfl⟩

theorem sameRequests_helperStep {p : ℕ} (h : helperStep env s p = some move) :
    s.SameRequests move.shared := by
  rw [helperStep] at h
  split at h
  · obtain ⟨process, -, rfl⟩ := Option.map_eq_some_iff.mp h
    exact ⟨rfl, rfl, rfl⟩
  · cases h
    exact .refl

/-- Only requests and pings touch them. -/
theorem sameRequests_of_step {a : SidecarTask} (h : step env s a = some move)
    (hrequest : ∀ exchange request pc, a ≠ .request exchange request pc)
    (hhealth : ∀ generation pc, a ≠ .health generation pc) : s.SameRequests move.shared := by
  have hthrough : ∀ {within : ShutdownPc → SidecarTask} {after : SidecarTask} {pc : ShutdownPc},
      throughShutdown within after (shutdownStep env s pc) = some move →
      s.SameRequests move.shared := by
    intro within after pc heq
    obtain ⟨pc', hstep, -, -⟩ := throughShutdown_cases heq
    exact sameRequests_shutdownStep hstep
  cases a with
  | ensure model =>
    cases h
    exact .refl
  | spawn model pc => exact sameRequests_spawnStep h
  | shutdown pc => exact hthrough h
  | graceful pc =>
    cases pc with
    | shutdown pc => exact hthrough h
    | _ =>
      cases h
      exact ⟨rfl, rfl, rfl⟩
  | idle generation pc =>
    cases pc with
    | shutdown pc => exact hthrough h
    | _ =>
      cases h
      exact .refl
  | request exchange request pc => exact absurd rfl (hrequest exchange request pc)
  | health generation pc => exact absurd rfl (hhealth generation pc)
  | helper p => exact sameRequests_helperStep h
  | free => cases h
  | finished => cases h

/-- Pings are not counted, and receive nothing. -/
theorem requests_of_healthStep {generation : ℕ} {pc : HealthPc}
    (h : healthStep env s generation pc = some move) :
    move.shared.activeRequestCount = s.activeRequestCount ∧
      move.shared.delivered = s.delivered := by
  cases pc with
  | exchange exchange pc =>
    obtain ⟨heard, pc', hexchange, -, -⟩ := exchange_of_healthStep h
    have hsame := sameRequests_exchangeStep hexchange
    exact ⟨hsame.activeRequestCount, hsame.delivered⟩
  | tryLock =>
    rw [healthStep] at h
    split at h <;> cases h <;> exact ⟨rfl, rfl⟩
  | _ =>
    cases h
    exact ⟨rfl, rfl⟩

/-- Nobody but a request touches the count, or receives anything. -/
theorem requests_of_step {a : SidecarTask} (h : step env s a = some move)
    (hrequest : ∀ exchange request pc, a ≠ .request exchange request pc) :
    move.shared.activeRequestCount = s.activeRequestCount ∧
      move.shared.delivered = s.delivered := by
  rcases em (∃ generation pc, a = .health generation pc) with ⟨generation, pc, rfl⟩ | hhealth
  · exact requests_of_healthStep h
  · have hsame : s.SameRequests move.shared :=
      sameRequests_of_step h hrequest fun generation pc ha => hhealth ⟨generation, pc, ha⟩
    exact ⟨hsame.activeRequestCount, hsame.delivered⟩

/-- What a task is as long as it lasts. -/
inductive TaskKind : Type where
  /-- a task that does not exist -/
  | free : TaskKind
  /-- `ensure_running`, with its `spawn` -/
  | spawn : TaskKind
  /-- `shutdown` -/
  | shutdown : TaskKind
  /-- `shutdown_gracefully` -/
  | graceful : TaskKind
  /-- `send_request` -/
  | request : ℕ → Request → TaskKind
  /-- a health check loop -/
  | health : ℕ → TaskKind
  /-- an idle check loop -/
  | idle : ℕ → TaskKind
  /-- a helper -/
  | helper : ℕ → TaskKind
  /-- a task that has ended -/
  | finished : TaskKind

/-- What a task is. -/
def SidecarTask.kind : SidecarTask → TaskKind
  | free => .free
  | ensure _ | spawn _ _ => .spawn
  | shutdown _ => .shutdown
  | graceful _ => .graceful
  | request exchange asked _ => .request exchange asked
  | health generation _ => .health generation
  | idle generation _ => .idle generation
  | helper p => .helper p
  | finished => .finished

/-- A task goes on as what it is, or ends. -/
def Lasts (a : SidecarTask) (move : Tasks.Move SidecarManager SidecarTask) : Prop :=
  (move.task.kind = a.kind ∨ move.task = .finished) ∧ move.spawned = none

theorem lasts_throughShutdown {a after : SidecarTask} {within : ShutdownPc → SidecarTask}
    {result : Option (SidecarManager × Option ShutdownPc)}
    (h : throughShutdown within after result = some move)
    (hwithin : ∀ pc, (within pc).kind = a.kind) (hafter : after.kind = a.kind ∨ after = .finished) :
    Lasts a move := by
  obtain ⟨_ | pc', -, htask, hnone⟩ := throughShutdown_cases h
  · exact ⟨htask ▸ hafter, hnone⟩
  · exact ⟨.inl ((congrArg _ htask).trans (hwithin pc')), hnone⟩

theorem lasts_requestStep {exchange : ℕ} {request : Request} {pc : RequestPc}
    (h : requestOrDrop env s exchange request pc = some move) :
    Lasts (.request exchange request pc) move := by
  rw [requestOrDrop] at h
  split at h
  · cases h
    exact ⟨.inl rfl, rfl⟩
  · cases pc with
    | exchange pc =>
      rw [requestStep] at h
      split at h <;> cases h <;> exact ⟨.inl rfl, rfl⟩
    | timedOut pc => exact lasts_throughShutdown h (fun _ => rfl) (.inl rfl)
    | lock =>
      rw [requestStep] at h
      split at h <;> cases h
      exact ⟨.inl rfl, rfl⟩
    | leave =>
      cases h
      exact ⟨.inr rfl, rfl⟩
    | _ =>
      cases h
      exact ⟨.inl rfl, rfl⟩

theorem lasts_healthStep {generation : ℕ} {pc : HealthPc}
    (h : healthStep env s generation pc = some move) : Lasts (.health generation pc) move := by
  cases pc with
  | exchange exchange pc =>
    rw [healthStep] at h
    split at h <;> cases h <;> exact ⟨.inl rfl, rfl⟩
  | tryLock =>
    rw [healthStep] at h
    split at h <;> cases h <;> exact ⟨.inl rfl, rfl⟩
  | tick =>
    rw [healthStep] at h
    cases h
    refine ⟨?_, rfl⟩
    split
    · exact .inr rfl
    · exact .inl rfl
  | current =>
    rw [healthStep] at h
    cases h
    refine ⟨?_, rfl⟩
    split
    · exact .inl rfl
    · exact .inr rfl
  | _ =>
    cases h
    exact ⟨.inl rfl, rfl⟩

theorem lasts_idleStep {generation : ℕ} {pc : IdlePc}
    (h : idleStep env s generation pc = some move) : Lasts (.idle generation pc) move := by
  cases pc with
  | shutdown pc => exact lasts_throughShutdown h (fun _ => rfl) (.inr rfl)
  | tick =>
    rw [idleStep] at h
    cases h
    refine ⟨?_, rfl⟩
    split
    · exact .inr rfl
    · exact .inl rfl
  | current =>
    rw [idleStep] at h
    cases h
    refine ⟨?_, rfl⟩
    split
    · exact .inl rfl
    · exact .inr rfl
  | _ =>
    cases h
    exact ⟨.inl rfl, rfl⟩

/-- A step of a `spawn` goes on as a spawn, or ends; what it spawns is a helper or a loop. -/
theorem lasts_spawnStep {model : String} {pc : SpawnPc}
    (h : spawnStep env s model pc = some move) :
    (move.task.kind = .spawn ∨ move.task = .finished) ∧
      ∀ child, move.spawned = some child → child = .helper s.spawned ∨
        (∃ generation, child = .health generation .tick) ∨
          ∃ generation, child = .idle generation .tick := by
  cases pc with
  | shutdown pc =>
    obtain ⟨hkind, hnone⟩ : Lasts (.spawn model (.shutdown pc)) move :=
      lasts_throughShutdown h (fun _ => rfl) (.inl rfl)
    refine ⟨hkind, fun child hspawned => ?_⟩
    rw [hnone] at hspawned
    cases hspawned
  | fork =>
    rw [spawnStep] at h
    split at h <;> cases h
    · exact ⟨.inr rfl, nofun⟩
    · exact ⟨.inl rfl, fun child hspawned => .inl (Option.some.inj hspawned).symm⟩
  | storeChild p =>
    rw [spawnStep] at h
    split at h <;> cases h
    exact ⟨.inl rfl, nofun⟩
  | storeStdout p =>
    rw [spawnStep] at h
    split at h <;> cases h
    exact ⟨.inl rfl, nofun⟩
  | startHealth generation =>
    cases h
    refine ⟨.inl rfl, fun child hspawned => ?_⟩
    exact .inr (.inl ⟨generation, (Option.some.inj hspawned).symm⟩)
  | startIdle generation =>
    cases h
    refine ⟨.inr rfl, fun child hspawned => ?_⟩
    exact .inr (.inr ⟨generation, (Option.some.inj hspawned).symm⟩)
  | _ =>
    cases h
    exact ⟨.inl rfl, nofun⟩

/-- Only a spawn starts tasks. -/
theorem lasts_of_step {a : SidecarTask} (h : step env s a = some move) :
    Lasts a move ∨ ∃ model pc, a = .spawn model pc := by
  cases a with
  | spawn model pc => exact .inr ⟨model, pc, rfl⟩
  | ensure model =>
    rw [step] at h
    cases h
    refine .inl ⟨?_, rfl⟩
    split
    · exact .inr rfl
    · exact .inl rfl
  | shutdown pc => exact .inl (lasts_throughShutdown h (fun _ => rfl) (.inr rfl))
  | graceful pc =>
    cases pc with
    | shutdown pc => exact .inl (lasts_throughShutdown h (fun _ => rfl) (.inr rfl))
    | _ =>
      cases h
      exact .inl ⟨.inl rfl, rfl⟩
  | request exchange request pc => exact .inl (lasts_requestStep h)
  | health generation pc => exact .inl (lasts_healthStep h)
  | idle generation pc => exact .inl (lasts_idleStep h)
  | helper p =>
    rw [step, helperStep] at h
    split at h
    · obtain ⟨process, -, rfl⟩ := Option.map_eq_some_iff.mp h
      exact .inl ⟨.inl rfl, rfl⟩
    · cases h
      exact .inl ⟨.inr rfl, rfl⟩
  | free => cases h
  | finished => cases h

/-- A task goes on as what it is, or ends. -/
theorem kind_of_step {a : SidecarTask} (h : step env s a = some move) :
    move.task.kind = a.kind ∨ move.task = .finished := by
  rcases lasts_of_step h with hlasts | ⟨model, pc, rfl⟩
  · exact hlasts.1
  · exact (lasts_spawnStep h).1

/-- What is spawned: a helper or a loop. -/
theorem spawned_of_step {a child : SidecarTask} (h : step env s a = some move)
    (hspawned : move.spawned = some child) :
    child = .helper s.spawned ∨ (∃ generation, child = .health generation .tick) ∨
      ∃ generation, child = .idle generation .tick := by
  rcases lasts_of_step h with hlasts | ⟨model, pc, rfl⟩
  · rw [hlasts.2] at hspawned
    cases hspawned
  · exact (lasts_spawnStep h).2 child hspawned

end Sidecar

end MeetilyLocal
