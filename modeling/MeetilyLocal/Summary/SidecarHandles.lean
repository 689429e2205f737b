import MeetilyLocal.Library.Counter
import MeetilyLocal.Summary.Sidecar

/-!
# The handles of the sidecar

`spawn` stores the handles of a sidecar one lock at a time, and `shutdown` clears them so. Each
task has a part in this (`HandleRole`), and `HandleStep` says what a step can do to the handles by
the part of its task.

In general two spawns leave a child without a handle (`not_consistent_overwritten`). The handles
stay together in runs in which nobody spawns or takes the child while another is at the handles
(`handlesConsistent_of_reaches`).
-/

namespace MeetilyLocal

namespace Sidecar

/-! ## Parts -/

/-- What a task is doing to the handles. -/
inductive HandleRole : Type where
  /-- nothing -/
  | aside : HandleRole
  /-- it takes the child next -/
  | takesChild : HandleRole
  /-- it has taken the child, and waits for it or kills it -/
  | reaps : ℕ → HandleRole
  /-- it clears the writer next -/
  | clearsStdin : HandleRole
  /-- it clears the reader next -/
  | clearsStdout : HandleRole
  /-- it clears the model next -/
  | clearsModel : HandleRole
  /-- it starts a process next -/
  | forks : HandleRole
  /-- it stores the child next -/
  | storesChild : ℕ → HandleRole
  /-- it stores the writer next -/
  | storesStdin : ℕ → HandleRole
  /-- it stores the reader next -/
  | storesStdout : ℕ → HandleRole
  /-- it stores the model next -/
  | storesModel : ℕ → HandleRole
  deriving DecidableEq

namespace HandleRole

/-- It has stored some of the handles, or is about to. -/
def stores : HandleRole → Bool
  | storesChild _ | storesStdin _ | storesStdout _ | storesModel _ => true
  | _ => false

/-- It has the child in hand, to reap it. -/
def isReaping : HandleRole → Bool
  | reaps _ => true
  | _ => false

/-- It is at the handles: it has begun to store or to clear them. -/
def partway : HandleRole → Bool
  | aside | takesChild | forks => false
  | _ => true

/-- The child that it has in hand. -/
def inHand : HandleRole → Option ℕ
  | reaps p | storesChild p => some p
  | _ => none

/-- What it has done to the handles so far. -/
def Done (s : SidecarManager) : HandleRole → Prop
  | aside | takesChild | forks => True
  | reaps _ | clearsStdin | storesChild _ => s.childProcess = none
  | clearsStdout => s.childProcess = none ∧ s.stdinWriter = none
  | clearsModel => s.childProcess = none ∧ s.stdinWriter = none ∧ s.stdoutReader = none
  | storesStdin p => s.childProcess = some p
  | storesStdout p => s.childProcess = some p ∧ s.stdinWriter = some p
  | storesModel p => s.childProcess = some p ∧ s.stdinWriter = some p ∧ s.stdoutReader = some p

end HandleRole

/-- The part of a `shutdown` -/
def ShutdownPc.role : ShutdownPc → HandleRole
  | .takeChild => .takesChild
  | .wait p | .kill p => .reaps p
  | .clearStdin => .clearsStdin
  | .clearStdout => .clearsStdout
  | .clearModel => .clearsModel
  | .setFlag | .checkHealthy | .writeShutdown | .setUnhealthy => .aside

/-- The part of a `spawn` -/
def SpawnPc.role : SpawnPc → HandleRole
  | .shutdown pc => pc.role
  | .fork => .forks
  | .storeChild p => .storesChild p
  | .storeStdin p => .storesStdin p
  | .storeStdout p => .storesStdout p
  | .storeModel p => .storesModel p
  | .setHealthy | .clearFlag | .bump | .startHealth _ | .startIdle _ => .aside

namespace SidecarTask

/-- The part of a task -/
def role : SidecarTask → HandleRole
  | spawn _ pc => pc.role
  | shutdown pc | graceful (.shutdown pc) | request _ _ (.timedOut pc) | idle _ (.shutdown pc) =>
    pc.role
  | _ => .aside

/-- A spawn or a shutdown is in progress. -/
def changes : SidecarTask → Bool
  | spawn _ _ | shutdown _ | graceful (.shutdown _) | request _ _ (.timedOut _)
  | idle _ (.shutdown _) => true
  | _ => false

/-- It is a request that is counted. -/
def active : SidecarTask → Bool
  | request _ _ .begin => false
  | request _ _ _ => true
  | _ => false

/-- A request that is counted next. -/
def enters : SidecarTask → Bool
  | request _ _ .begin => true
  | _ => false

/-- A request whose future is dropped. -/
def drops (env : SidecarEnv) : SidecarTask → Bool
  | request _ _ _ => env.dropped
  | _ => false

end SidecarTask

/-- The child is not yet gone. -/
def ShutdownPc.beforeGone : ShutdownPc → Bool
  | .setFlag | .checkHealthy | .writeShutdown | .takeChild | .wait _ | .kill _ => true
  | .clearStdin | .clearStdout | .clearModel | .setUnhealthy => false

namespace SidecarTask

/-- An idle loop that shuts the sidecar down. -/
def idleShutsDown : SidecarTask → Bool
  | idle _ (.shutdown pc) => pc.beforeGone
  | _ => false

/-- An idle loop that has seen no active request, and may shut the sidecar down. -/
def idlePassed : SidecarTask → Bool
  | idle _ .checkIdle => true
  | idle _ (.shutdown pc) => pc.beforeGone
  | _ => false

end SidecarTask

/-! ## What a step does to the handles -/

theorem alive_tear {p : Process} (h : p.tear.alive = true) : p.alive = true := by
  rw [Process.tear] at h
  split at h <;> exact h

namespace SidecarManager

/-- The handles stay as they are, and no process starts. -/
structure Keeps (s s' : SidecarManager) : Prop where
  /-- `child_process` -/
  childProcess : s'.childProcess = s.childProcess
  /-- `stdin_writer` -/
  stdinWriter : s'.stdinWriter = s.stdinWriter
  /-- `stdout_reader` -/
  stdoutReader : s'.stdoutReader = s.stdoutReader
  /-- `current_model_path` -/
  currentModelPath : s'.currentModelPath = s.currentModelPath
  /-- no process is spawned -/
  spawned : s'.spawned = s.spawned
  /-- nor does one come back -/
  alive : ∀ p, (s'.processes p).alive = true → (s.processes p).alive = true

variable {s s' : SidecarManager}

theorem Keeps.refl : s.Keeps s := ⟨rfl, rfl, rfl, rfl, rfl, fun _ => id⟩

theorem alive_of_updateProcess {p q : ℕ} {f : Process → Process}
    (hf : (f (s.processes p)).alive = true → (s.processes p).alive = true)
    (h : ((s.updateProcess p f).processes q).alive = true) : (s.processes q).alive = true := by
  rcases eq_or_ne q p with rfl | hne
  · exact hf (by simpa [updateProcess] using h)
  · simpa [updateProcess, hne] using h

theorem keeps_updateProcess {p : ℕ} {f : Process → Process}
    (hf : (f (s.processes p)).alive = true → (s.processes p).alive = true) :
    s.Keeps (s.updateProcess p f) :=
  ⟨rfl, rfl, rfl, rfl, rfl, fun _ => alive_of_updateProcess hf⟩

theorem Keeps.deliver {exchange : ℕ} {answers : List ℕ} {response : Response} (h : s.Keeps s') :
    s.Keeps (s'.deliver exchange answers response) :=
  ⟨h.childProcess, h.stdinWriter, h.stdoutReader, h.currentModelPath, h.spawned, h.alive⟩

theorem keeps_write {p exchange : ℕ} {request : Request} {written : Written} :
    s.Keeps (s.write p exchange request written) := by
  cases written with
  | whole => exact keeps_updateProcess (f := (·.writeLine exchange request)) id
  | part => exact keeps_updateProcess (f := (·.writePart exchange)) id
  | nothing => exact .refl

theorem keeps_dropRead {q : ℕ} {torn : Bool} : s.Keeps (s.dropRead q torn) := by
  refine ⟨rfl, rfl, rfl, rfl, rfl, fun p hp => ?_⟩
  refine alive_of_updateProcess (f := fun process => if torn then process.tear else process)
    (fun halive => ?_) hp
  split at halive
  · exact alive_tear halive
  · exact halive

end SidecarManager

/-- A helper that has exited stays so. -/
theorem alive_of_serve {p p' : Process} {act : HelperAct} (h : p.serve act = some p') :
    p'.alive = true → p.alive = true := by
  cases act with
  | exits =>
    cases h
    exact nofun
  | prints =>
    cases h
    exact id
  | streams text =>
    obtain ⟨exchanges, -, rfl⟩ := Option.map_eq_some_iff.mp h
    exact id
  | goesOn text error =>
    rw [Process.serve] at h
    split at h
    · cases h
      exact id
    · split at h
      · cases h
      · split at h <;> cases h
        · exact id
        · exact id
        · exact nofun
        · exact id

/-- What a step can do to the handles, by the part of its task; `failed` says whether the operating
system refuses, and `dropped` whether the task is dropped. -/
inductive HandleStep (failed dropped : Bool) (s : SidecarManager) :
    HandleRole → SidecarManager → HandleRole → Prop where
  /-- nothing -/
  | keeps {r r' : HandleRole} {s' : SidecarManager} : s.Keeps s' → r.partway = false →
      r'.partway = false → HandleStep failed dropped s r s' r'
  /-- nothing, as it is dropped -/
  | drops {r : HandleRole} {s' : SidecarManager} : s.Keeps s' → dropped = true →
      HandleStep failed dropped s r s' .aside
  /-- it goes on waiting for the child -/
  | waits {p : ℕ} : HandleStep failed dropped s (.reaps p) s (.reaps p)
  /-- the child is gone, if the operating system is able to say so -/
  | reaped {p : ℕ} {s' : SidecarManager} : s.Keeps s' →
      (failed = false → (s'.processes p).alive = false) →
      HandleStep failed dropped s (.reaps p) s' .clearsStdin
  /-- the child is taken -/
  | takes {p : ℕ} : s.childProcess = some p →
      HandleStep failed dropped s .takesChild { s with childProcess := none, childLocked := true }
        (.reaps p)
  /-- there is no child to take -/
  | passes : s.childProcess = none → HandleStep failed dropped s .takesChild s .clearsStdin
  /-- the writer is cleared -/
  | clearsStdin :
      HandleStep failed dropped s .clearsStdin { s with stdinWriter := none } .clearsStdout
  /-- the reader is cleared -/
  | clearsStdout :
      HandleStep failed dropped s .clearsStdout { s with stdoutReader := none } .clearsModel
  /-- the model is cleared -/
  | clearsModel :
      HandleStep failed dropped s .clearsModel { s with currentModelPath := none } .aside
  /-- a process is started -/
  | forks : failed = false →
      HandleStep failed dropped s .forks
        { s.updateProcess s.spawned fun _ => .new with spawned := s.spawned + 1 }
        (.storesChild s.spawned)
  /-- the child is stored -/
  | storesChild {p : ℕ} :
      HandleStep failed dropped s (.storesChild p) { s with childProcess := some p }
        (.storesStdin p)
  /-- the writer is stored -/
  | storesStdin {p : ℕ} :
      HandleStep failed dropped s (.storesStdin p) { s with stdinWriter := some p }
        (.storesStdout p)
  /-- the reader is stored -/
  | storesStdout {p : ℕ} :
      HandleStep failed dropped s (.storesStdout p) { s with stdoutReader := some p }
        (.storesModel p)
  /-- the model is stored -/
  | storesModel {p : ℕ} {model : String} :
      HandleStep failed dropped s (.storesModel p) { s with currentModelPath := some (model, p) }
        .aside

/-! ### Inversion -/

section Inversion

variable {env : SidecarEnv} {s s' : SidecarManager} {a : SidecarTask} {dropped : Bool}
  {move : Tasks.Move SidecarManager SidecarTask}

theorem handleStep_shutdownStep {pc : ShutdownPc} {pc' : Option ShutdownPc} {after : HandleRole}
    (hafter : after.partway = false) (h : shutdownStep env s pc = some (s', pc')) :
    HandleStep env.failed dropped s pc.role s' (pc'.elim after ShutdownPc.role) := by
  cases pc with
  | setFlag =>
    cases h
    exact .keeps ⟨rfl, rfl, rfl, rfl, rfl, fun _ => id⟩ rfl rfl
  | checkHealthy =>
    cases h
    rcases s.isHealthy with _ | _ <;> exact .keeps .refl rfl rfl
  | writeShutdown =>
    rw [shutdownStep] at h
    split at h
    · next p _ =>
      cases h
      have hwrite : s.Keeps (s.write p s.exchanges .shutdown env.written) :=
        SidecarManager.keeps_write
      exact .keeps ⟨hwrite.childProcess, hwrite.stdinWriter, hwrite.stdoutReader,
        hwrite.currentModelPath, hwrite.spawned, hwrite.alive⟩ rfl rfl
    · cases h
      exact .keeps .refl rfl rfl
  | takeChild =>
    rw [shutdownStep] at h
    split at h
    · cases h
    · split at h
      · next hchild =>
        cases h
        exact .takes hchild
      · next hchild =>
        cases h
        exact .passes hchild
  | wait p =>
    rw [shutdownStep] at h
    split at h
    · next hgone =>
      cases h
      refine .reaped ⟨rfl, rfl, rfl, rfl, rfl, fun _ => id⟩ fun hfailed => ?_
      simpa [hfailed] using hgone
    · split at h <;> cases h
      exact .waits
  | kill p =>
    cases h
    rcases env.failed with _ | _
    · refine .reaped ⟨rfl, rfl, rfl, rfl, rfl, fun q hq => ?_⟩ fun _ => ?_
      · exact SidecarManager.alive_of_updateProcess
          (f := fun process => { process with alive := false }) (by simp) hq
      · simp [SidecarManager.updateProcess]
    · exact .reaped ⟨rfl, rfl, rfl, rfl, rfl, fun _ => id⟩ (by simp)
  | clearStdin =>
    cases h
    exact .clearsStdin
  | clearStdout =>
    rw [shutdownStep] at h
    split at h <;> cases h
    exact .clearsStdout
  | clearModel =>
    cases h
    exact .clearsModel
  | setUnhealthy =>
    cases h
    exact .keeps ⟨rfl, rfl, rfl, rfl, rfl, fun _ => id⟩ rfl hafter

/-- A step of a `shutdown` inside another task. -/
theorem handleStep_throughShutdown {within : ShutdownPc → SidecarTask} {after : SidecarTask}
    {pc : ShutdownPc} (hwithin : ∀ pc, (within pc).role = pc.role)
    (hafter : after.role.partway = false)
    (h : throughShutdown within after (shutdownStep env s pc) = some move) :
    HandleStep env.failed dropped s pc.role move.shared move.task.role := by
  obtain ⟨pc', hstep, htask, -⟩ := throughShutdown_cases h
  have hhandle : HandleStep env.failed dropped s pc.role move.shared
      (pc'.elim after.role ShutdownPc.role) := handleStep_shutdownStep hafter hstep
  rw [htask]
  rcases pc' with _ | pc'
  · exact hhandle
  · exact (hwithin pc').symm ▸ hhandle

theorem handleStep_spawnStep {model : String} {pc : SpawnPc}
    (h : spawnStep env s model pc = some move) :
    HandleStep env.failed dropped s pc.role move.shared move.task.role := by
  cases pc with
  | shutdown pc => exact handleStep_throughShutdown (fun _ => rfl) rfl h
  | fork =>
    rw [spawnStep] at h
    rcases hfailed : env.failed with _ | _ <;> rw [hfailed] at h <;> cases h
    · exact .forks rfl
    · exact .keeps .refl rfl rfl
  | storeChild p =>
    rw [spawnStep] at h
    split at h <;> cases h
    exact .storesChild
  | storeStdin p =>
    cases h
    exact .storesStdin
  | storeStdout p =>
    rw [spawnStep] at h
    split at h <;> cases h
    exact .storesStdout
  | storeModel p =>
    cases h
    exact .storesModel
  | _ =>
    cases h
    exact .keeps ⟨rfl, rfl, rfl, rfl, rfl, fun _ => id⟩ rfl rfl

theorem keeps_exchangeStep {exchange : ℕ} {request : Request} {pc : ExchangePc} {heard : Heard}
    (h : exchangeStep env s exchange request pc = some (s', heard)) : s.Keeps s' := by
  cases pc with
  | write =>
    rw [exchangeStep] at h
    split at h <;> cases h
    · exact .refl
    · exact SidecarManager.keeps_write
  | read p =>
    rw [exchangeStep] at h
    split at h
    · cases h
      exact .refl
    · split at h
      · cases h
      · split at h <;> cases h <;> exact ⟨rfl, rfl, rfl, rfl, rfl, fun _ => id⟩
  | readLine p q =>
    rw [exchangeStep] at h
    split at h
    · next rest _ =>
      cases h
      refine ⟨rfl, rfl, rfl, rfl, rfl, fun p hp => ?_⟩
      exact SidecarManager.alive_of_updateProcess
        (f := fun process => { process with output := rest }) id hp
    · split at h
      · cases h
        exact SidecarManager.keeps_dropRead
      · split at h <;> cases h
        exact ⟨rfl, rfl, rfl, rfl, rfl, fun _ => id⟩

theorem keeps_dropRequest {exchange : ℕ} {request : Request} {pc : RequestPc} :
    s.Keeps (dropRequest env s exchange request pc).1 := by
  rcases pc with _ | _ | (_ | _ | _) | pc | _ | _ | _
  case exchange.write =>
    simp only [dropRequest]
    split
    · exact SidecarManager.keeps_write
    · exact .refl
  case exchange.readLine => exact SidecarManager.keeps_dropRead
  case timedOut => cases pc <;> exact ⟨rfl, rfl, rfl, rfl, rfl, fun _ => id⟩
  all_goals exact .refl

/-- Where a dropped request goes on. -/
theorem role_dropRequest {exchange : ℕ} {request : Request} {pc : RequestPc} :
    (SidecarTask.request exchange request (dropRequest env s exchange request pc).2).role =
      .aside := by
  rcases pc with _ | _ | (_ | _ | _) | pc | _ | _ | _
  case timedOut => cases pc <;> rfl
  all_goals rfl

theorem handleStep_requestStep {exchange : ℕ} {request : Request} {pc : RequestPc}
    (h : requestStep env s exchange request pc = some move) :
    HandleStep env.failed dropped s (SidecarTask.request exchange request pc).role move.shared
      move.task.role := by
  cases pc with
  | exchange pc =>
    obtain ⟨s', heard, pc', hexchange, hshared, hpc, htask⟩ := exchange_of_requestStep h
    have hkeeps : s.Keeps move.shared := by
      rcases hshared with hshared | ⟨answers, text, hshared⟩
      · exact hshared ▸ keeps_exchangeStep hexchange
      · exact hshared ▸ (keeps_exchangeStep hexchange).deliver
    have hrole : move.task.role.partway = false := by
      rw [htask]
      cases hpc <;> rfl
    exact .keeps hkeeps rfl hrole
  | timedOut pc => exact handleStep_throughShutdown (fun _ => rfl) rfl h
  | lock =>
    rw [requestStep] at h
    split at h <;> cases h
    exact .keeps ⟨rfl, rfl, rfl, rfl, rfl, fun _ => id⟩ rfl rfl
  | _ =>
    cases h
    exact .keeps ⟨rfl, rfl, rfl, rfl, rfl, fun _ => id⟩ rfl rfl

theorem handleStep_healthStep {generation : ℕ} {pc : HealthPc}
    (h : healthStep env s generation pc = some move) :
    HandleStep env.failed dropped s .aside move.shared move.task.role := by
  cases pc with
  | exchange exchange pc =>
    obtain ⟨heard, pc', hexchange, -, htask⟩ := exchange_of_healthStep h
    have hrole : move.task.role.partway = false := htask ▸ rfl
    exact .keeps (keeps_exchangeStep hexchange) rfl hrole
  | tryLock =>
    rw [healthStep] at h
    split at h <;> cases h <;> exact .keeps ⟨rfl, rfl, rfl, rfl, rfl, fun _ => id⟩ rfl rfl
  | _ =>
    rw [healthStep] at h
    cases h
    refine .keeps ⟨rfl, rfl, rfl, rfl, rfl, fun _ => id⟩ rfl ?_
    first | rfl | (split <;> rfl)

theorem handleStep_idleStep {generation : ℕ} {pc : IdlePc}
    (h : idleStep env s generation pc = some move) :
    HandleStep env.failed dropped s (SidecarTask.idle generation pc).role move.shared
      move.task.role := by
  cases pc with
  | shutdown pc => exact handleStep_throughShutdown (fun _ => rfl) rfl h
  | _ =>
    rw [idleStep] at h
    cases h
    refine .keeps .refl rfl ?_
    split <;> rfl

theorem handleStep_gracefulStep {pc : GracefulPc} (h : gracefulStep env s pc = some move) :
    HandleStep env.failed dropped s (SidecarTask.graceful pc).role move.shared move.task.role := by
  cases pc with
  | shutdown pc => exact handleStep_throughShutdown (fun _ => rfl) rfl h
  | setFlag =>
    cases h
    exact .keeps ⟨rfl, rfl, rfl, rfl, rfl, fun _ => id⟩ rfl rfl
  | poll =>
    rw [gracefulStep] at h
    cases h
    refine .keeps .refl rfl ?_
    split <;> rfl

theorem handleStep_helperStep {p : ℕ} (h : helperStep env s p = some move) :
    HandleStep env.failed dropped s .aside move.shared move.task.role := by
  rw [helperStep] at h
  split at h
  · obtain ⟨process, hserve, rfl⟩ := Option.map_eq_some_iff.mp h
    have hkeeps : s.Keeps (s.updateProcess p fun _ => process) :=
      SidecarManager.keeps_updateProcess (alive_of_serve hserve)
    exact .keeps hkeeps rfl rfl
  · cases h
    exact .keeps .refl rfl rfl

/-- **Inversion.** What a step does to the handles. -/
theorem handleStep_of_step (h : step env s a = some move) :
    HandleStep env.failed (a.drops env) s a.role move.shared move.task.role := by
  cases a with
  | ensure model =>
    rw [step] at h
    cases h
    refine .keeps .refl rfl ?_
    split <;> rfl
  | spawn model pc => exact handleStep_spawnStep h
  | shutdown pc => exact handleStep_throughShutdown (fun _ => rfl) rfl h
  | graceful pc => exact handleStep_gracefulStep h
  | request exchange request pc =>
    rw [step, requestOrDrop] at h
    split at h
    · next hdropped =>
      cases h
      rw [role_dropRequest]
      exact .drops keeps_dropRequest hdropped
    · exact handleStep_requestStep h
  | health generation pc => exact handleStep_healthStep h
  | idle generation pc => exact handleStep_idleStep h
  | helper p => exact handleStep_helperStep h
  | free => cases h
  | finished => cases h

end Inversion

/-! ## What is consistent -/

/-- The handles are those of one spawn, or there are none. -/
structure SidecarManager.Agree (s : SidecarManager) : Prop where
  /-- the writer is that of the child -/
  stdin : s.stdinWriter = s.childProcess
  /-- and so is the reader -/
  stdout : s.stdoutReader = s.childProcess
  /-- and the model -/
  model : s.currentModelPath.map Prod.snd = s.childProcess

/-- They agree as long as they are left alone. -/
theorem SidecarManager.Agree.keeps {s s' : SidecarManager} (h : s.Agree) (hkeeps : s.Keeps s') :
    s'.Agree := by
  refine ⟨?_, ?_, ?_⟩
  · rw [hkeeps.stdinWriter, hkeeps.childProcess, h.stdin]
  · rw [hkeeps.stdoutReader, hkeeps.childProcess, h.stdout]
  · rw [hkeeps.currentModelPath, hkeeps.childProcess, h.model]

/-- The handles are consistent. -/
structure Consistent (c : Tasks.Config SidecarManager SidecarTask) : Prop where
  /-- while no spawn or shutdown is in progress, they are those of one spawn -/
  agree : (∀ t, (c.tasks t).changes = false) → c.shared.Agree
  /-- and no other spawn is left running -/
  running : (∀ t, (c.tasks t).changes = false) → ∀ p < c.shared.spawned,
    (c.shared.processes p).alive = true → c.shared.childProcess = some p
  /-- no idle loop shuts the sidecar down while a request is active -/
  idle : ∀ t u, (c.tasks t).idleShutsDown = true → (c.tasks u).active = false

/-- A process is started while there is no child and nobody else is at the handles, and no child
is taken while a spawn stores its handles. A child that is waited for or killed is gone
afterwards, and the future that does so is not dropped. No request is counted while an idle loop
is between its look at the count and the end of the child. -/
def orderly : Tasks.Discipline SidecarManager SidecarTask SidecarEnv SidecarCall where
  call _ _ := True
  callBeside _ _ := True
  step env s a :=
    (a.role = .forks → env.failed = false → s.childProcess = none) ∧
    (a.role.isReaping = true → env.failed = false) ∧
    (a.drops env = true → a.role.partway = false)
  stepBeside env _ a b :=
    (a.role = .forks → env.failed = false → b.role.partway = false) ∧
    (a.role = .takesChild → b.role.stores = false) ∧
    (a.enters = true → b.idlePassed = false)

/-! ## Steps -/

namespace HandleRole

variable {r : HandleRole} {s s' : SidecarManager}

theorem done_of_partway (h : r.partway = false) : r.Done s := by
  cases r <;> trivial

theorem inHand_of_partway (h : r.partway = false) : r.inHand = none := by
  cases r <;> first | rfl | cases h

theorem stores_of_partway (h : r.partway = false) : r.stores = false := by
  cases r <;> first | rfl | cases h

/-- Nobody stores handles beside a task that is at them. -/
theorem stores_beside {other : HandleRole} (hstored : other.stores = true → r.partway = false)
    (h : r.partway = true) : other.stores = false := by
  rcases hother : other.stores with _ | _
  · rfl
  · exact absurd (h.symm.trans (hstored hother)) nofun

theorem Done.keeps (h : r.Done s) (hkeeps : s.Keeps s') : r.Done s' := by
  cases r <;> first
    | trivial
    | simpa only [Done, hkeeps.childProcess, hkeeps.stdinWriter, hkeeps.stdoutReader] using h

end HandleRole

namespace HandleStep

variable {failed dropped : Bool} {s s' : SidecarManager} {r r' : HandleRole}

/-- What a task has done to the handles after its step. -/
theorem done (h : HandleStep failed dropped s r s' r') (hdone : r.Done s)
    (hforks : r = .forks → failed = false → s.childProcess = none) : r'.Done s' := by
  cases h with
  | keeps _ _ hpartway => exact HandleRole.done_of_partway hpartway
  | drops => trivial
  | waits => exact hdone
  | reaped hkeeps => exact hkeeps.childProcess.trans hdone
  | takes => rfl
  | passes hchild => exact hchild
  | clearsStdin => exact ⟨hdone, rfl⟩
  | clearsStdout => exact ⟨hdone.1, hdone.2, rfl⟩
  | clearsModel => trivial
  | forks hfailed => exact hforks rfl hfailed
  | storesChild => rfl
  | storesStdin => exact ⟨hdone, rfl⟩
  | storesStdout => exact ⟨hdone.1, hdone.2, rfl⟩
  | storesModel => trivial

/-- A task that stores handles does so alone. -/
theorem alone {other : HandleRole} (h : HandleStep failed dropped s r s' r')
    (hstores : r.stores = true → other.partway = false)
    (hstored : other.stores = true → r.partway = false)
    (hforks : r = .forks → failed = false → other.partway = false)
    (htakes : r = .takesChild → other.stores = false) :
    (r'.stores = true → other.partway = false) ∧ (other.stores = true → r'.partway = false) := by
  have hother := HandleRole.stores_beside hstored
  cases h with
  | keeps _ _ hpartway =>
    refine ⟨fun hr => ?_, fun _ => hpartway⟩
    exact absurd ((HandleRole.stores_of_partway hpartway).symm.trans hr) nofun
  | drops => exact ⟨nofun, fun _ => rfl⟩
  | waits => exact ⟨nofun, fun hr => absurd ((hother rfl).symm.trans hr) nofun⟩
  | reaped => exact ⟨nofun, fun hr => absurd ((hother rfl).symm.trans hr) nofun⟩
  | takes => exact ⟨nofun, fun hr => absurd ((htakes rfl).symm.trans hr) nofun⟩
  | passes => exact ⟨nofun, fun hr => absurd ((htakes rfl).symm.trans hr) nofun⟩
  | clearsStdin => exact ⟨nofun, fun hr => absurd ((hother rfl).symm.trans hr) nofun⟩
  | clearsStdout => exact ⟨nofun, fun hr => absurd ((hother rfl).symm.trans hr) nofun⟩
  | clearsModel => exact ⟨nofun, fun _ => rfl⟩
  | forks hfailed =>
    have haside := hforks rfl hfailed
    refine ⟨fun _ => haside, fun hr => ?_⟩
    exact absurd ((HandleRole.stores_of_partway haside).symm.trans hr) nofun
  | storesChild =>
    exact ⟨fun _ => hstores rfl, fun hr => absurd ((hother rfl).symm.trans hr) nofun⟩
  | storesStdin =>
    exact ⟨fun _ => hstores rfl, fun hr => absurd ((hother rfl).symm.trans hr) nofun⟩
  | storesStdout =>
    exact ⟨fun _ => hstores rfl, fun hr => absurd ((hother rfl).symm.trans hr) nofun⟩
  | storesModel => exact ⟨nofun, fun _ => rfl⟩

/-- A task that clears handles leaves what another one has cleared. -/
theorem done_beside {other : HandleRole} (h : HandleStep failed dropped s r s' r')
    (hdone : other.Done s) (hstores : r.stores = true → other.partway = false)
    (hstored : other.stores = true → r.partway = false)
    (hforks : r = .forks → failed = false → other.partway = false)
    (htakes : r = .takesChild → other.stores = false) : other.Done s' := by
  have hcleared := HandleRole.stores_beside hstored
  cases h with
  | keeps hkeeps => exact hdone.keeps hkeeps
  | drops hkeeps => exact hdone.keeps hkeeps
  | waits => exact hdone
  | reaped hkeeps => exact hdone.keeps hkeeps
  | passes => exact hdone
  | takes =>
    have hother := htakes rfl
    cases other <;> first | trivial | rfl | exact ⟨rfl, hdone.2⟩
  | clearsStdin =>
    have hother := hcleared rfl
    cases other <;> first | exact hdone | exact ⟨hdone.1, rfl⟩ | exact ⟨hdone.1, rfl, hdone.2.2⟩ |
      cases hother
  | clearsStdout =>
    have hother := hcleared rfl
    cases other <;> first | exact hdone | exact ⟨hdone.1, hdone.2.1, rfl⟩ | cases hother
  | clearsModel => cases other <;> exact hdone
  | forks hfailed => exact HandleRole.done_of_partway (hforks rfl hfailed)
  | storesChild => exact HandleRole.done_of_partway (hstores rfl)
  | storesStdin => exact HandleRole.done_of_partway (hstores rfl)
  | storesStdout => exact HandleRole.done_of_partway (hstores rfl)
  | storesModel => exact HandleRole.done_of_partway (hstores rfl)

/-- While nobody is at the handles, they agree. -/
theorem agree (h : HandleStep failed dropped s r s' r') (hdone : r.Done s)
    (hdropped : dropped = true → r.partway = false) (hagree : r.partway = false → s.Agree)
    (hpartway : r'.partway = false) : s'.Agree := by
  cases h with
  | keeps hkeeps hr => exact (hagree hr).keeps hkeeps
  | drops hkeeps hd => exact (hagree (hdropped hd)).keeps hkeeps
  | clearsModel =>
    obtain ⟨hchild, hstdin, hstdout⟩ := hdone
    exact ⟨hstdin.trans hchild.symm, hstdout.trans hchild.symm, hchild.symm⟩
  | storesModel =>
    obtain ⟨hchild, hstdin, hstdout⟩ := hdone
    exact ⟨hstdin.trans hchild.symm, hstdout.trans hchild.symm, hchild.symm⟩
  | _ => cases hpartway

/-- A process that nobody has in hand is the child if it is running. -/
theorem running {p : ℕ} (h : HandleStep failed dropped s r s' r') (hdone : r.Done s)
    (hreaps : r.isReaping = true → failed = false) (hdropped : dropped = true → r.partway = false)
    (hrunning : r.inHand ≠ some p → p < s.spawned → (s.processes p).alive = true →
      s.childProcess = some p)
    (hinHand : r'.inHand ≠ some p) (hp : p < s'.spawned)
    (halive : (s'.processes p).alive = true) : s'.childProcess = some p := by
  have hkept : s.Keeps s' → r.inHand ≠ some p → s'.childProcess = some p := by
    intro hkeeps hr
    rw [hkeeps.childProcess]
    exact hrunning hr (hkeeps.spawned ▸ hp) (hkeeps.alive p halive)
  cases h with
  | keeps hkeeps hr =>
    refine hkept hkeeps ?_
    rw [HandleRole.inHand_of_partway hr]
    exact nofun
  | drops hkeeps hd =>
    refine hkept hkeeps ?_
    rw [HandleRole.inHand_of_partway (hdropped hd)]
    exact nofun
  | waits => exact hrunning hinHand hp halive
  | @reaped q _ hkeeps hgone =>
    rcases eq_or_ne q p with rfl | hne
    · exact absurd ((hgone (hreaps rfl)).symm.trans halive) nofun
    · exact hkept hkeeps fun hq => hne (Option.some.inj hq)
  | @takes q hchild =>
    -- it was the child
    have hq : some q = some p := hchild.symm.trans (hrunning nofun hp halive)
    exact absurd hq hinHand
  | passes => exact hrunning nofun hp halive
  | forks =>
    have hne : p ≠ s.spawned := fun heq => hinHand (congrArg some heq.symm)
    refine hrunning nofun (lt_of_le_of_ne (Nat.lt_succ_iff.mp hp) hne) ?_
    simpa [SidecarManager.updateProcess, hne] using halive
  | @storesChild q =>
    rcases eq_or_ne q p with rfl | hne
    · rfl
    · -- there was no child
      have hchild : s.childProcess = some p :=
        hrunning (fun hq => hne (Option.some.inj hq)) hp halive
      exact absurd (hdone.symm.trans hchild) nofun
  | _ => exact hrunning nofun hp halive

end HandleStep

/-! ## Runs -/

variable {env : SidecarEnv} {s s' : SidecarManager} {a child : SidecarTask}
  {move : Tasks.Move SidecarManager SidecarTask} {c : Tasks.Config SidecarManager SidecarTask}
  {d : Tasks.Discipline SidecarManager SidecarTask SidecarEnv SidecarCall}

/-- A call leaves the handles alone and begins aside of them. -/
theorem keeps_begins {k : SidecarCall} (h : begins k s = some (s', a)) :
    s.Keeps s' ∧ a.role = .aside ∧ a.active = false ∧ a.idlePassed = false := by
  cases k <;> cases h <;> exact ⟨⟨rfl, rfl, rfl, rfl, rfl, fun _ => id⟩, rfl, rfl, rfl⟩

/-- What is spawned is aside of the handles. -/
theorem role_of_spawned (h : step env s a = some move) (hspawned : move.spawned = some child) :
    child.role = .aside ∧ child.active = false ∧ child.idlePassed = false := by
  rcases spawned_of_step h hspawned with rfl | ⟨generation, rfl⟩ | ⟨generation, rfl⟩ <;>
    exact ⟨rfl, rfl, rfl⟩

/-! ### Who is at the handles -/

/-- What each task has done to the handles; a task that stores some is alone. -/
def parts : Tasks.Assertions SidecarManager SidecarTask where
  shared _ := True
  own s a := a.role.Done s
  pair a b := (a.role.stores = true → b.role.partway = false) ∧
    (b.role.stores = true → a.role.partway = false)

theorem parts_of_aside (b : SidecarTask) (h : a.role = .aside) :
    parts.own s a ∧ parts.pair a b := by
  have hpartway : a.role.partway = false := by rw [h]; rfl
  refine ⟨HandleRole.done_of_partway hpartway, fun hstores => ?_, fun _ => hpartway⟩
  exact absurd ((HandleRole.stores_of_partway hpartway).symm.trans hstores) nofun

theorem stable_parts : Tasks.Assertions.Stable .trivial parts program orderly where
  symm hpair := ⟨hpair.2, hpair.1⟩
  call _ _ hbegins := by
    obtain ⟨-, hrole, -⟩ := keeps_begins hbegins
    exact ⟨trivial, (parts_of_aside .free hrole).1⟩
  callBeside {k s s' a b} _ _ _ hown hbegins := by
    obtain ⟨hkeeps, hrole, -⟩ := keeps_begins hbegins
    exact ⟨hown.2.keeps hkeeps, (parts_of_aside (s := s) b hrole).2⟩
  step htaken :=
    ⟨trivial, (handleStep_of_step htaken.eq).done htaken.own.2 htaken.allowed.1⟩
  beside hbeside := by
    have hstep := handleStep_of_step hbeside.eq
    obtain ⟨hforks, htakes, -⟩ := hbeside.allowedBeside
    obtain ⟨hstores, hstored⟩ := hbeside.pair.2
    exact ⟨hstep.done_beside hbeside.ownOther.2 hstores hstored hforks htakes,
      hstep.alone hstores hstored hforks htakes⟩
  spawn {env s a child move} htaken hspawned := by
    obtain ⟨hrole, -⟩ := role_of_spawned htaken.eq hspawned
    obtain ⟨hown, halone⟩ := parts_of_aside (s := move.shared) move.task hrole
    exact ⟨hown, halone.2, halone.1⟩
  spawnBeside {env s a b child move} hbeside hspawned := by
    obtain ⟨hrole, -⟩ := role_of_spawned hbeside.eq hspawned
    exact (parts_of_aside (s := s) b hrole).2

theorem hold_parts (h : Tasks.Reaches program orderly start c) : parts.Hold c := by
  refine stable_parts.of_reaches (fun _ _ => Tasks.Assertions.hold_trivial) ?_ h
  exact ⟨trivial, fun _ => trivial, fun _ _ _ => ⟨nofun, nofun⟩⟩

theorem role_of_isFree (h : program.isFree a = true) : a = .free := by
  cases a <;> first | rfl | cases h

/-- While nobody is at the handles, they agree. -/
theorem agree_of_reaches (h : Tasks.Reaches program orderly start c)
    (hidle : ∀ t, ¬(c.tasks t).role.partway = true) : c.shared.Agree := by
  have habsent : Tasks.Absent parts.Hold program orderly (fun a => a.role.partway = true)
      SidecarManager.Agree := {
    free := by
      intro a hfree
      rw [role_of_isFree hfree]
      exact nofun
    call := by
      intro c t k s' a _ _ hbegins _ hagree
      obtain ⟨hkeeps, -⟩ := keeps_begins hbegins
      exact hagree.keeps hkeeps
    stay := by
      intro c t child env move hknown hallow hstep _ hmoved hagree
      exact (handleStep_of_step hstep).agree (hknown.own t) hallow.1.2.2 (fun _ => hagree)
        (Bool.eq_false_iff.mpr hmoved)
    leave := by
      intro c t child env move hknown hallow hstep hbusy hmoved _ _
      refine (handleStep_of_step hstep).agree (hknown.own t) hallow.1.2.2 (fun hpartway => ?_)
        (Bool.eq_false_iff.mpr hmoved)
      exact absurd (hpartway.symm.trans hbusy) nofun }
  exact habsent.of_reaches (fun _ => hold_parts) (fun _ => ⟨rfl, rfl, rfl⟩) h hidle

/-- A spawned process that nobody has in hand is the child if it is running. -/
theorem running_of_reaches (h : Tasks.Reaches program orderly start c) (p : ℕ)
    (hidle : ∀ t, ¬(c.tasks t).role.inHand = some p) (hp : p < c.shared.spawned)
    (halive : (c.shared.processes p).alive = true) : c.shared.childProcess = some p := by
  have habsent : Tasks.Absent parts.Hold program orderly (fun a => a.role.inHand = some p)
      (fun s => p < s.spawned → (s.processes p).alive = true → s.childProcess = some p) := {
    free := by
      intro a hfree
      rw [role_of_isFree hfree]
      exact nofun
    call := by
      intro c t k s' a _ _ hbegins _ hrunning hp halive
      obtain ⟨hkeeps, -⟩ := keeps_begins hbegins
      rw [hkeeps.childProcess]
      exact hrunning (hkeeps.spawned ▸ hp) (hkeeps.alive p halive)
    stay := by
      intro c t child env move hknown hallow hstep _ hmoved hrunning
      exact (handleStep_of_step hstep).running (hknown.own t) hallow.1.2.1 hallow.1.2.2
        (fun _ => hrunning) hmoved
    leave := by
      intro c t child env move hknown hallow hstep hbusy hmoved _ _
      exact (handleStep_of_step hstep).running (hknown.own t) hallow.1.2.1 hallow.1.2.2
        (fun hr => absurd hbusy hr) hmoved }
  exact habsent.of_reaches (fun _ => hold_parts) (fun _ hp => absurd hp (Nat.not_lt_zero p)) h
    hidle hp halive

theorem role_of_changes (h : a.changes = false) : a.role = .aside := by
  rcases a with _ | _ | _ | _ | (_ | _ | _) | ⟨_, _, _ | _ | _ | _ | _ | _ | _⟩ | _ |
    ⟨_, _ | _ | _ | _ | _⟩ | _ | _ <;> first | rfl | cases h

/-! ### Who is counted -/

/-- Only requests are counted. -/
theorem active_of_kind (h : ∀ exchange request, a.kind ≠ .request exchange request) :
    a.active = false := by
  cases a with
  | request exchange request pc => exact absurd rfl (h exchange request)
  | _ => rfl

/-- Only idle loops look whether there are some. -/
theorem idlePassed_of_kind (h : ∀ generation, a.kind ≠ .idle generation) :
    a.idlePassed = false := by
  cases a with
  | idle generation pc => exact absurd rfl (h generation)
  | _ => rfl

/-- What a step of a request does to the count. -/
theorem count_of_requestStep {exchange : ℕ} {request : Request} {pc : RequestPc}
    (h : requestStep env s exchange request pc = some move) :
    (move.shared.activeRequestCount = s.activeRequestCount ∧
      move.task.active = (SidecarTask.request exchange request pc).active) ∨
    (pc = .begin ∧ move.shared.activeRequestCount = s.activeRequestCount + 1 ∧
      move.task.active = true) ∨
    (pc = .leave ∧ move.shared.activeRequestCount = s.activeRequestCount - 1 ∧
      move.task.active = false) := by
  cases pc with
  | begin =>
    cases h
    exact .inr (.inl ⟨rfl, rfl, rfl⟩)
  | leave =>
    cases h
    exact .inr (.inr ⟨rfl, rfl, rfl⟩)
  | exchange pc =>
    obtain ⟨s', heard, pc', hexchange, hshared, hpc, htask⟩ := exchange_of_requestStep h
    have hcount : move.shared.activeRequestCount = s'.activeRequestCount := by
      rcases hshared with hshared | ⟨answers, text, hshared⟩ <;> rw [hshared]
      rfl
    have hactive : move.task.active = true := by
      rw [htask]
      cases hpc <;> rfl
    exact .inl ⟨hcount.trans (sameRequests_exchangeStep hexchange).activeRequestCount, hactive⟩
  | timedOut pc =>
    obtain ⟨_ | pc', hstep, htask, -⟩ := throughShutdown_cases h
    · exact .inl ⟨(sameRequests_shutdownStep hstep).activeRequestCount, by rw [htask]; rfl⟩
    · exact .inl ⟨(sameRequests_shutdownStep hstep).activeRequestCount, by rw [htask]; rfl⟩
  | lock =>
    rw [requestStep] at h
    split at h <;> cases h
    exact .inl ⟨rfl, rfl⟩
  | answered answers response =>
    cases h
    exact .inl ⟨rfl, rfl⟩
  | unlock =>
    cases h
    exact .inl ⟨rfl, rfl⟩

/-- What a step does to the count. -/
theorem count_cases (h : step env s a = some move) :
    (move.shared.activeRequestCount = s.activeRequestCount ∧ move.task.active = a.active) ∨
    (a.enters = true ∧ move.shared.activeRequestCount = s.activeRequestCount + 1 ∧
      move.task.active = true) ∨
    (a.active = true ∧ move.shared.activeRequestCount = s.activeRequestCount - 1 ∧
      move.task.active = false) := by
  rcases a with _ | _ | _ | _ | _ | ⟨exchange, request, pc⟩ | _ | _ | _ | _
  case request =>
    rw [step, requestOrDrop] at h
    split at h
    · cases h
      refine .inl ⟨sameRequests_dropRequest.activeRequestCount, ?_⟩
      rcases pc with _ | _ | (_ | _ | _) | pc | _ | _ | _
      case timedOut => cases pc <;> rfl
      all_goals rfl
    · rcases count_of_requestStep h with hsame | ⟨rfl, hcount⟩ | ⟨rfl, hcount⟩
      · exact .inl hsame
      · exact .inr (.inl ⟨rfl, hcount⟩)
      · exact .inr (.inr ⟨rfl, hcount⟩)
  all_goals
    have hactive : move.task.active = false := by
      rcases kind_of_step h with hkind | hfinished
      · exact active_of_kind fun _ _ hrequest => by cases hkind.symm.trans hrequest
      · rw [hfinished]
        rfl
    exact .inl ⟨(requests_of_step h (by simp)).1, hactive⟩

/-- A request that enters is not counted yet. -/
theorem active_of_enters (h : a.enters = true) : a.active = false := by
  rcases a with _ | _ | _ | _ | _ | ⟨_, _, _ | _ | _ | _ | _ | _ | _⟩ | _ | _ | _ | _ <;>
    first | rfl | cases h

/-- The active requests are counted. -/
theorem requestCounter :
    Tasks.Counter program SidecarManager.activeRequestCount SidecarTask.active where
  free hfree := by
    rw [role_of_isFree hfree]
    rfl
  call {k s s' a} hbegins := by
    obtain ⟨-, -, hactive, -⟩ := keeps_begins hbegins
    refine ⟨?_, hactive⟩
    cases k <;> cases hbegins <;> rfl
  step hstep := by
    rcases count_cases hstep with hsame | ⟨henters, hcount⟩ | hleaves
    · exact .inl hsame
    · exact .inr (.inl ⟨active_of_enters henters, hcount⟩)
    · exact .inr (.inr hleaves)
  spawn hstep hspawned := (role_of_spawned hstep hspawned).2.1

/-! ### Who is idle -/

theorem beforeGone_shutdownStep {pc pc' : ShutdownPc}
    (h : shutdownStep env s pc = some (s', some pc')) (hpc' : pc'.beforeGone = true) :
    pc.beforeGone = true := by
  cases pc with
  | clearStdout =>
    rw [shutdownStep] at h
    split at h <;> cases h
    cases hpc'
  | clearStdin | clearModel =>
    cases h
    cases hpc'
  | setUnhealthy => cases h
  | _ => rfl

/-- An idle loop sees no active request before it may shut the sidecar down. -/
theorem idlePassed_of_step (h : step env s a = some move) (hpassed : move.task.idlePassed = true) :
    a.idlePassed = true ∨ s.activeRequestCount = 0 := by
  rcases ha : a with _ | _ | _ | _ | _ | _ | _ | ⟨generation, pc⟩ | _ | _
  case idle =>
    rw [ha, step] at h
    cases pc with
    | shutdown pc =>
      obtain ⟨_ | pc', hstep, htask, -⟩ := throughShutdown_cases h
      · rw [htask] at hpassed
        cases hpassed
      · rw [htask] at hpassed
        exact .inl (beforeGone_shutdownStep hstep hpassed)
    | checkActive =>
      rw [idleStep] at h
      cases h
      rcases Nat.eq_zero_or_pos s.activeRequestCount with hzero | hpos
      · exact .inr hzero
      · rw [if_pos hpos] at hpassed
        cases hpassed
    | checkIdle => exact .inl rfl
    | tick =>
      rw [idleStep] at h
      cases h
      split at hpassed <;> cases hpassed
    | current =>
      rw [idleStep] at h
      cases h
      split at hpassed <;> cases hpassed
  all_goals
    have hnone : move.task.idlePassed = false := by
      rcases kind_of_step h with hkind | hfinished
      · rw [ha] at hkind
        exact idlePassed_of_kind fun _ hidle => by cases hkind.symm.trans hidle
      · rw [hfinished]
        rfl
    exact absurd (hnone.symm.trans hpassed) Bool.false_ne_true

/-- The idle loops that have seen no active request, and the requests that are. -/
def looks : Tasks.Assertions SidecarManager SidecarTask where
  shared _ := True
  own _ _ := True
  pair a b := (a.idlePassed = true → b.active = false) ∧ (b.idlePassed = true → a.active = false)

theorem stable_looks : Tasks.Assertions.Stable
    (Tasks.Counter.assertions SidecarManager.activeRequestCount SidecarTask.active) looks program
    orderly where
  symm hpair := ⟨hpair.2, hpair.1⟩
  call _ _ _ := ⟨trivial, trivial⟩
  callBeside {k s s' a b} _ _ _ _ hbegins := by
    obtain ⟨-, -, hactive, hpassed⟩ := keeps_begins hbegins
    refine ⟨trivial, fun ha => ?_, fun _ => hactive⟩
    exact absurd (hpassed.symm.trans ha) nofun
  step _ := ⟨trivial, trivial⟩
  beside {env s a b move} hbeside := by
    obtain ⟨hpassed, hactive⟩ := hbeside.pair.2
    refine ⟨trivial, fun hmoved => ?_, fun hb => ?_⟩
    · rcases idlePassed_of_step hbeside.eq hmoved with ha | hzero
      · exact hpassed ha
      · rcases hb : b.active with _ | _
        · rfl
        · exact absurd hzero (hbeside.ownOther.1 hb).ne'
    · rcases count_cases hbeside.eq with ⟨-, hsame⟩ | ⟨henters, -⟩ | ⟨-, -, hidle⟩
      · exact hsame.trans (hactive hb)
      · exact absurd ((hbeside.allowedBeside.2.2 henters).symm.trans hb) nofun
      · exact hidle
  spawn {env s a child move} htaken hspawned := by
    obtain ⟨-, hactive, hpassed⟩ := role_of_spawned htaken.eq hspawned
    refine ⟨trivial, fun _ => hactive, fun hchild => ?_⟩
    exact absurd (hpassed.symm.trans hchild) nofun
  spawnBeside {env s a b child move} hbeside hspawned := by
    obtain ⟨-, hactive, hpassed⟩ := role_of_spawned hbeside.eq hspawned
    refine ⟨fun hchild => ?_, fun _ => hactive⟩
    exact absurd (hpassed.symm.trans hchild) nofun

theorem hold_looks (h : Tasks.Reaches program orderly start c) : looks.Hold c := by
  refine stable_looks.of_reaches (fun _ => requestCounter.hold (fun _ => rfl) rfl) ?_ h
  exact ⟨trivial, fun _ => trivial, fun _ _ _ => ⟨nofun, nofun⟩⟩

theorem idlePassed_of_idleShutsDown (h : a.idleShutsDown = true) :
    a.idlePassed = true ∧ a.active = false := by
  rcases a with _ | _ | _ | _ | _ | _ | _ | ⟨_, _ | _ | _ | _ | _⟩ | _ | _ <;>
    first | exact ⟨h, rfl⟩ | cases h

instance (k : SidecarCall) (s : SidecarManager) : Decidable (orderly.call k s) :=
  inferInstanceAs (Decidable True)

instance (k : SidecarCall) (b : SidecarTask) : Decidable (orderly.callBeside k b) :=
  inferInstanceAs (Decidable True)

instance (env : SidecarEnv) (s : SidecarManager) (a : SidecarTask) :
    Decidable (orderly.step env s a) :=
  inferInstanceAs (Decidable (_ ∧ _ ∧ _))

instance (env : SidecarEnv) (s : SidecarManager) (a b : SidecarTask) :
    Decidable (orderly.stepBeside env s a b) :=
  inferInstanceAs (Decidable (_ ∧ _ ∧ _))

/-- Steps of a task in which all goes well. -/
def smoothly (t n : ℕ) : List (Tasks.Label SidecarEnv SidecarCall) :=
  List.replicate n (.run t ⟨.whole, false, false, false, false, true, .goesOn "" none⟩ 9)

/-- `ensure_running` while there is no sidecar, up to the start of the process. -/
def preparesSpawn (t : ℕ) : List (Tasks.Label SidecarEnv SidecarCall) :=
  .call t (.ensureRunning "gemma3") :: smoothly t 8

/-- The tasks that a spawn starts. -/
def starts (t child : ℕ) : List (Tasks.Label SidecarEnv SidecarCall) :=
  [.run t ⟨.whole, false, false, false, false, false, .exits⟩ child]

/-- A sidecar is started, answers a request, is shut down by its idle loop, and is started again. -/
def startedAgain : List (Tasks.Label SidecarEnv SidecarCall) :=
  preparesSpawn 0 ++ starts 0 1 ++ smoothly 0 7 ++ starts 0 2 ++ starts 0 3 ++
    .call 4 (.sendRequest .generate) :: smoothly 4 4 ++ smoothly 1 2 ++ smoothly 4 4 ++
    smoothly 3 8 ++ smoothly 1 1 ++ smoothly 3 5 ++
    preparesSpawn 5 ++ starts 5 6 ++ smoothly 5 7 ++ starts 5 7 ++ starts 5 8

/-- Two calls start a sidecar at once, and the second child is stored over the first. -/
def overwritten : List (Tasks.Label SidecarEnv SidecarCall) :=
  preparesSpawn 0 ++ preparesSpawn 1 ++ starts 0 2 ++ starts 1 3 ++ smoothly 0 1 ++ smoothly 1 1 ++
    smoothly 0 6 ++ starts 0 4 ++ starts 0 5 ++ smoothly 1 6 ++ starts 1 6 ++ starts 1 7

end Sidecar

end MeetilyLocal
