import MeetilyLocal.Library.Guard
import MeetilyLocal.Summary.SidecarHandles

/-!
# Answers and requests

Under the request lock a request writes a line and reads answers until a terminal one. `Heads` says
of a helper that its next answers are those to this request, up to the terminal one or to something
that cannot be parsed. A line that is written to a helper on which nothing of an earlier line is
left puts its request at the head, and nobody who does not have the lock takes it away.

In general an exchange can end early and leave its answer to the next one
(`not_paired_leftOver`). Answers are paired with their requests in runs in which each request is
written to a helper on which nothing is left, and read from that helper (`paired_of_reaches`).
-/

namespace MeetilyLocal

namespace Sidecar

/-! ## What a helper answers next -/

namespace Process

/-- The lines are chunks for an exchange. -/
def Chunks (exchange : ℕ) (lines : List Output) : Prop :=
  ∀ line ∈ lines, ∃ text, line = .answer [exchange] (.chunk text)

/-- The line ends an exchange: it is its terminal answer, or cannot be parsed. -/
def Ends (exchange : ℕ) (line : Output) : Prop :=
  line = .unparseable ∨ ∃ response, line = .answer [exchange] response ∧
    ∀ text, response ≠ .chunk text

/-- The exchange is the next to be answered: after chunks for it the helper serves it, or has its
line before it; or a line that ends it stands behind chunks for it. -/
inductive Heads (exchange : ℕ) (p : Process) : Prop where
  /-- it is being served -/
  | served : Chunks exchange p.output → p.serving = some [exchange] → Heads exchange p
  /-- its line is the next to be read -/
  | waits {request : Option Request} {rest : List Line} : Chunks exchange p.output →
      p.serving = none → p.input = ⟨[exchange], request⟩ :: rest → Heads exchange p
  /-- what ends it has been written -/
  | ended {chunks : List Output} {line : Output} {rest : List Output} :
      p.output = chunks ++ line :: rest → Chunks exchange chunks → Ends exchange line →
      Heads exchange p

/-- Nothing is left of an earlier line. -/
structure Clean (p : Process) : Prop where
  /-- all lines were read -/
  input : p.input = []
  /-- and answered -/
  serving : p.serving = none
  /-- no line was begun -/
  fragment : p.fragment = []
  /-- no answer is waiting to be read -/
  output : ∀ line ∈ p.output, line = .unparseable

/-- What becomes of a helper while another task has the request lock: it takes a step, a line or a
part of one is written to it, or it is killed. -/
inductive Moves (p : Process) : Process → Prop where
  /-- nothing -/
  | stays : Moves p p
  /-- it takes a step -/
  | serves {act : HelperAct} {p' : Process} : p.serve act = some p' → Moves p p'
  /-- a line is written to it -/
  | line {exchange : ℕ} {request : Request} : Moves p (p.writeLine exchange request)
  /-- a part of a line is written to it -/
  | part {exchange : ℕ} : Moves p (p.writePart exchange)
  /-- it is killed -/
  | killed : Moves p { p with alive := false }

variable {exchange : ℕ} {p p' : Process}

theorem chunks_nil : Chunks exchange [] := fun _ hline => nomatch hline

theorem chunks_append_singleton {lines : List Output} {text : String}
    (h : Chunks exchange lines) :
    Chunks exchange (lines ++ [.answer [exchange] (.chunk text)]) := by
  intro line hline
  rcases List.mem_append.mp hline with hline | hline
  · exact h line hline
  · exact ⟨text, List.mem_singleton.mp hline⟩

theorem Clean.eq_nil_or (h : p.Clean) :
    p.output = [] ∨ ∃ rest, p.output = .unparseable :: rest := by
  rcases houtput : p.output with _ | ⟨line, rest⟩
  · exact .inl rfl
  · have hline : line = .unparseable := h.output line (houtput ▸ List.mem_cons_self)
    exact .inr ⟨rest, by rw [hline]⟩

/-- A line that is written to a helper on which nothing is left is the next to be answered. -/
theorem Clean.heads_writeLine {request : Request} (h : p.Clean) :
    (p.writeLine exchange request).Heads exchange := by
  have hinput : (p.writeLine exchange request).input = ⟨[exchange], some request⟩ :: [] := by
    simp [writeLine, h.input, h.fragment]
  rcases h.eq_nil_or with houtput | ⟨rest, houtput⟩
  · refine .waits ?_ h.serving hinput
    rw [show (p.writeLine exchange request).output = [] from houtput]
    exact chunks_nil
  · have hended : (p.writeLine exchange request).output = [] ++ .unparseable :: rest := houtput
    exact .ended hended chunks_nil (.inl rfl)

/-- A terminal answer ends the exchange, also if its beginning is lost. -/
theorem ends_of_terminal {response : Response} (hterminal : ∀ text, response ≠ .chunk text) :
    Ends exchange (if p.torn then .unparseable else .answer [exchange] response) := by
  split
  · exact .inl rfl
  · exact .inr ⟨response, rfl, hterminal⟩

/-- A helper only adds to its output. -/
theorem Moves.exists_output (h : p.Moves p') : ∃ lines, p'.output = p.output ++ lines := by
  have hnil : ∃ lines, p.output = p.output ++ lines := ⟨[], (List.append_nil _).symm⟩
  cases h with
  | stays => exact hnil
  | line => exact hnil
  | part => exact hnil
  | killed => exact hnil
  | @serves act _ hserve =>
    cases act with
    | exits =>
      cases hserve
      exact hnil
    | prints =>
      cases hserve
      exact ⟨_, rfl⟩
    | streams text =>
      obtain ⟨exchanges, -, rfl⟩ := Option.map_eq_some_iff.mp hserve
      exact ⟨_, rfl⟩
    | goesOn text error =>
      rw [serve] at hserve
      split at hserve
      · cases hserve
        exact ⟨_, rfl⟩
      · split at hserve
        · cases hserve
        · split at hserve <;> cases hserve
          · exact hnil
          · exact ⟨_, rfl⟩
          · exact ⟨_, rfl⟩
          · exact ⟨_, rfl⟩

/-- A helper that serves the exchange goes on to do so, or ends it. -/
theorem heads_of_served (hchunks : Chunks exchange p.output)
    (hserving : p.serving = some [exchange]) (h : p.Moves p') : p'.Heads exchange := by
  cases h with
  | stays => exact .served hchunks hserving
  | line => exact .served hchunks hserving
  | part => exact .served hchunks hserving
  | killed => exact .served hchunks hserving
  | @serves act _ hserve =>
    cases act with
    | exits =>
      cases hserve
      exact .served hchunks hserving
    | prints =>
      cases hserve
      exact .ended rfl hchunks (.inl (ite_self _))
    | streams text =>
      rw [serve, hserving] at hserve
      cases hserve
      rcases htorn : p.torn with _ | _
      · refine .served ?_ hserving
        simpa [emit, htorn] using chunks_append_singleton hchunks
      · exact .ended rfl hchunks (.inl (if_pos htorn))
    | goesOn text error =>
      rw [serve, hserving] at hserve
      cases hserve
      exact .ended rfl hchunks (ends_of_terminal (by simp))

/-- A helper that has its line before it serves it next, or ends it at once. -/
theorem heads_of_waits {request : Option Request} {rest : List Line}
    (hchunks : Chunks exchange p.output) (hserving : p.serving = none)
    (hinput : p.input = ⟨[exchange], request⟩ :: rest) (h : p.Moves p') : p'.Heads exchange := by
  cases h with
  | stays => exact .waits hchunks hserving hinput
  | @line other asked =>
    obtain ⟨last, hlast⟩ : ∃ last, (p.writeLine other asked).input = p.input ++ [last] := ⟨_, rfl⟩
    rw [hinput] at hlast
    exact .waits hchunks hserving hlast
  | part => exact .waits hchunks hserving hinput
  | killed => exact .waits hchunks hserving hinput
  | @serves act _ hserve =>
    cases act with
    | exits =>
      cases hserve
      exact .waits hchunks hserving hinput
    | prints =>
      cases hserve
      exact .ended rfl hchunks (.inl (ite_self _))
    | streams text =>
      rw [serve, hserving] at hserve
      cases hserve
    | goesOn text error =>
      rw [serve, hserving, hinput] at hserve
      rcases request with _ | _ | _ | _ <;> cases hserve
      · exact .ended rfl hchunks (ends_of_terminal (by simp))
      · exact .served hchunks rfl
      · exact .ended rfl hchunks (ends_of_terminal (by simp))
      · exact .ended rfl hchunks (ends_of_terminal (by simp))

/-- Nobody else takes it away. -/
theorem Heads.moves (h : p.Heads exchange) (hmoves : p.Moves p') : p'.Heads exchange := by
  cases h with
  | served hchunks hserving => exact heads_of_served hchunks hserving hmoves
  | waits hchunks hserving hinput => exact heads_of_waits hchunks hserving hinput hmoves
  | @ended chunks line rest houtput hchunks hline =>
    obtain ⟨lines, hlines⟩ := hmoves.exists_output
    have hended : p'.output = chunks ++ line :: (rest ++ lines) := by
      rw [hlines, houtput, List.append_assoc, List.cons_append]
    exact .ended hended hchunks hline

/-- The next line of a helper with the exchange at its head is a chunk for it, or ends it. -/
theorem Heads.head {line : Output} {rest : List Output} (h : p.Heads exchange)
    (houtput : p.output = line :: rest) :
    (∃ text, line = .answer [exchange] (.chunk text)) ∨ Ends exchange line := by
  cases h with
  | served hchunks => exact .inl (hchunks line (houtput ▸ List.mem_cons_self))
  | waits hchunks => exact .inl (hchunks line (houtput ▸ List.mem_cons_self))
  | @ended chunks last after hlines hchunks hline =>
    rw [houtput] at hlines
    rcases chunks with _ | ⟨first, chunks⟩
    · obtain ⟨rfl, -⟩ := List.cons.inj hlines
      exact .inr hline
    · obtain ⟨rfl, -⟩ := List.cons.inj hlines
      exact .inl (hchunks line List.mem_cons_self)

/-- An answer that is read is to the exchange. -/
theorem Heads.answers_eq {answers : List ℕ} {response : Response} {rest : List Output}
    (h : p.Heads exchange) (houtput : p.output = .answer answers response :: rest) :
    answers = [exchange] := by
  rcases h.head houtput with ⟨text, hline⟩ | hline | ⟨response', hline, -⟩
  · exact (Output.answer.inj hline).1
  · cases hline
  · exact (Output.answer.inj hline).1

/-- After a chunk is read, the exchange is still the next to be answered. -/
theorem Heads.chunk {answers : List ℕ} {text : String} {rest : List Output}
    (h : p.Heads exchange) (houtput : p.output = .answer answers (.chunk text) :: rest) :
    ({ p with output := rest }).Heads exchange := by
  have htail : ∀ {lines : List Output}, Chunks exchange (lines) → lines = p.output →
      Chunks exchange rest := by
    intro lines hchunks hlines line hline
    refine hchunks line ?_
    rw [hlines, houtput]
    exact List.mem_cons_of_mem _ hline
  cases h with
  | served hchunks hserving => exact .served (htail hchunks rfl) hserving
  | waits hchunks hserving hinput => exact .waits (htail hchunks rfl) hserving hinput
  | @ended chunks last after hlines hchunks hline =>
    rw [houtput] at hlines
    rcases chunks with _ | ⟨first, chunks⟩
    · -- a chunk ends nothing
      obtain ⟨rfl, -⟩ := List.cons.inj hlines
      rcases hline with hline | ⟨response, hline, hterminal⟩
      · cases hline
      · exact absurd (Output.answer.inj hline).2.symm (hterminal text)
    · obtain ⟨-, hrest⟩ := List.cons.inj hlines
      exact .ended hrest (fun line hmem => hchunks line (List.mem_cons_of_mem _ hmem)) hline

end Process

/-! ## Runs -/

/-- What requests have received was answered to them. -/
def Paired (s : SidecarManager) : Prop := ∀ d ∈ s.delivered, d.answers = [d.exchange]

/-- A request whose line is written whole is written to a helper on which nothing is left, and reads
from the helper that it was written to. -/
def matched : Tasks.Discipline SidecarManager SidecarTask SidecarEnv SidecarCall where
  call _ _ := True
  callBeside _ _ := True
  step env s a :=
    match a with
    | .request _ _ (.exchange .write) =>
      env.dropped = false → env.written = .whole →
        ∀ p, s.stdinWriter = some p → (s.processes p).Clean
    | .request _ _ (.exchange (.read p)) =>
      env.dropped = false → env.timedOut = false → ∀ q, s.stdoutReader = some q → q = p
    | _ => True
  stepBeside _ _ _ _ := True

namespace SidecarTask

/-- It has the request lock. -/
def locksRequests : SidecarTask → Bool
  | request _ _ (.exchange _) | request _ _ (.timedOut _) | request _ _ (.answered _ _)
  | request _ _ .unlock | health _ (.exchange _ _) | health _ (.unlock _) => true
  | _ => false

/-- The helper that a request awaits an answer of has it at the head; an answer that was read is
to it. -/
def Awaits (s : SidecarManager) : SidecarTask → Prop
  | request exchange _ (.exchange (.read p)) => p < s.spawned ∧ (s.processes p).Heads exchange
  | request exchange _ (.exchange (.readLine p q)) =>
    q = p ∧ p < s.spawned ∧ (s.processes p).Heads exchange
  | request exchange _ (.answered answers _) => answers = [exchange]
  | _ => True

end SidecarTask

/-- The spawn whose handles are being stored. -/
def HandleRole.stored : HandleRole → Option ℕ
  | storesChild p | storesStdin p | storesStdout p | storesModel p => some p
  | _ => none

theorem HandleRole.stored_of_partway {r : HandleRole} (h : r.partway = false) :
    r.stored = none := by
  cases r <;> first | rfl | cases h

namespace HandleStep

variable {failed dropped : Bool} {s s' : SidecarManager} {r r' : HandleRole}

/-- No spawn is forgotten. -/
theorem spawned_le (h : HandleStep failed dropped s r s' r') : s.spawned ≤ s'.spawned := by
  cases h with
  | keeps hkeeps => exact hkeeps.spawned.ge
  | drops hkeeps => exact hkeeps.spawned.ge
  | reaped hkeeps => exact hkeeps.spawned.ge
  | forks => exact Nat.le_succ _
  | _ => exact le_rfl

/-- What is stored was spawned. -/
theorem stored_lt (h : HandleStep failed dropped s r s' r')
    (hstored : ∀ p, r.stored = some p → p < s.spawned) :
    ∀ p, r'.stored = some p → p < s'.spawned := by
  intro p hp
  cases h with
  | keeps _ _ hr =>
    rw [HandleRole.stored_of_partway hr] at hp
    cases hp
  | forks => exact Option.some.inj hp ▸ Nat.lt_succ_self _
  | storesChild => exact hstored p hp
  | storesStdin => exact hstored p hp
  | storesStdout => exact hstored p hp
  | _ => cases hp

/-- The writer is that of a spawn. -/
theorem stdinWriter_lt (h : HandleStep failed dropped s r s' r')
    (hstored : ∀ p, r.stored = some p → p < s.spawned)
    (hstdin : ∀ p, s.stdinWriter = some p → p < s.spawned) :
    ∀ p, s'.stdinWriter = some p → p < s'.spawned := by
  intro p hp
  cases h with
  | keeps hkeeps => exact hkeeps.spawned ▸ hstdin p (hkeeps.stdinWriter ▸ hp)
  | drops hkeeps => exact hkeeps.spawned ▸ hstdin p (hkeeps.stdinWriter ▸ hp)
  | reaped hkeeps => exact hkeeps.spawned ▸ hstdin p (hkeeps.stdinWriter ▸ hp)
  | clearsStdin => cases hp
  | storesStdin => exact hstored p hp
  | forks => exact (hstdin p hp).trans (Nat.lt_succ_self _)
  | _ => exact hstdin p hp

end HandleStep

/-! ### What others do to a helper -/

section Others

variable {env : SidecarEnv} {s s' : SidecarManager} {a : SidecarTask} {p : ℕ}
  {move : Tasks.Move SidecarManager SidecarTask}

theorem moves_updateProcess {q : ℕ} {f : Process → Process}
    (hf : (s.processes q).Moves (f (s.processes q))) :
    (s.processes p).Moves ((s.updateProcess q f).processes p) := by
  rcases eq_or_ne p q with rfl | hne
  · simpa [SidecarManager.updateProcess] using hf
  · simpa [SidecarManager.updateProcess, hne] using Process.Moves.stays

theorem moves_write {q exchange : ℕ} {request : Request} {written : Written} :
    (s.processes p).Moves ((s.write q exchange request written).processes p) := by
  cases written with
  | whole => exact moves_updateProcess (f := (·.writeLine exchange request)) .line
  | part => exact moves_updateProcess (f := (·.writePart exchange)) .part
  | nothing => exact .stays

theorem moves_shutdownStep {pc : ShutdownPc} {pc' : Option ShutdownPc}
    (h : shutdownStep env s pc = some (s', pc')) : (s.processes p).Moves (s'.processes p) := by
  cases pc with
  | writeShutdown =>
    rw [shutdownStep] at h
    split at h <;> cases h
    · exact moves_write
    · exact .stays
  | takeChild =>
    rw [shutdownStep] at h
    split at h
    · cases h
    · split at h <;> cases h <;> exact .stays
  | wait q =>
    rw [shutdownStep] at h
    split at h
    · cases h
      exact .stays
    · split at h <;> cases h
      exact .stays
  | kill q =>
    cases h
    rcases env.failed with _ | _
    · exact moves_updateProcess (f := fun process => { process with alive := false }) .killed
    · exact .stays
  | clearStdout =>
    rw [shutdownStep] at h
    split at h <;> cases h
    exact .stays
  | _ =>
    cases h
    exact .stays

theorem moves_spawnStep {model : String} {pc : SpawnPc} (hp : p < s.spawned)
    (h : spawnStep env s model pc = some move) :
    (s.processes p).Moves (move.shared.processes p) := by
  cases pc with
  | shutdown pc =>
    obtain ⟨pc', hstep, -, -⟩ := throughShutdown_cases h
    exact moves_shutdownStep hstep
  | fork =>
    rw [spawnStep] at h
    split at h <;> cases h
    · exact .stays
    · simpa [SidecarManager.updateProcess, hp.ne] using Process.Moves.stays
  | storeChild q =>
    rw [spawnStep] at h
    split at h <;> cases h
    exact .stays
  | storeStdout q =>
    rw [spawnStep] at h
    split at h <;> cases h
    exact .stays
  | _ =>
    cases h
    exact .stays

theorem moves_helperStep {q : ℕ} (h : helperStep env s q = some move) :
    (s.processes p).Moves (move.shared.processes p) := by
  rw [helperStep] at h
  split at h
  · obtain ⟨process, hserve, rfl⟩ := Option.map_eq_some_iff.mp h
    exact moves_updateProcess (f := fun _ => process) (.serves hserve)
  · cases h
    exact .stays

/-- A task without the request lock does not read from a helper. -/
theorem moves_of_step (hp : p < s.spawned) (hlocks : a.locksRequests = false)
    (h : step env s a = some move) : (s.processes p).Moves (move.shared.processes p) := by
  have hthrough : ∀ {within : ShutdownPc → SidecarTask} {after : SidecarTask} {pc : ShutdownPc},
      throughShutdown within after (shutdownStep env s pc) = some move →
      (s.processes p).Moves (move.shared.processes p) := by
    intro within after pc heq
    obtain ⟨pc', hstep, -, -⟩ := throughShutdown_cases heq
    exact moves_shutdownStep hstep
  cases a with
  | ensure model =>
    cases h
    exact .stays
  | spawn model pc => exact moves_spawnStep hp h
  | shutdown pc => exact hthrough h
  | graceful pc =>
    cases pc with
    | shutdown pc => exact hthrough h
    | _ =>
      cases h
      exact .stays
  | idle generation pc =>
    cases pc with
    | shutdown pc => exact hthrough h
    | _ =>
      cases h
      exact .stays
  | request exchange request pc =>
    rw [step, requestOrDrop] at h
    cases pc with
    | begin => split at h <;> cases h <;> exact .stays
    | lock =>
      split at h
      · cases h
        exact .stays
      · rw [requestStep] at h
        split at h <;> cases h
        exact .stays
    | leave => split at h <;> cases h <;> exact .stays
    | _ => cases hlocks
  | health generation pc =>
    rw [step] at h
    cases pc with
    | exchange _ _ => cases hlocks
    | unlock _ => cases hlocks
    | tryLock =>
      rw [healthStep] at h
      split at h <;> cases h <;> exact .stays
    | _ =>
      cases h
      exact .stays
  | helper q => exact moves_helperStep h
  | free => cases h
  | finished => cases h

end Others

/-! ### The request lock -/

section RequestLock

variable {env : SidecarEnv} {s : SidecarManager} {a : SidecarTask}
  {move : Tasks.Move SidecarManager SidecarTask}

theorem locksRequests_of_kind (hrequest : ∀ exchange request, a.kind ≠ .request exchange request)
    (hhealth : ∀ generation, a.kind ≠ .health generation) : a.locksRequests = false := by
  cases a with
  | request exchange request pc => exact absurd rfl (hrequest exchange request)
  | health generation pc => exact absurd rfl (hhealth generation)
  | _ => rfl

/-- What a step does to the request lock. -/
def LockStep (s : SidecarManager) (a : SidecarTask)
    (move : Tasks.Move SidecarManager SidecarTask) : Prop :=
  (move.shared.requestLocked = s.requestLocked ∧ move.task.locksRequests = a.locksRequests) ∨
  (s.requestLocked = false ∧ a.locksRequests = false ∧ move.shared.requestLocked = true ∧
    move.task.locksRequests = true) ∨
  (a.locksRequests = true ∧ move.shared.requestLocked = false ∧ move.task.locksRequests = false)

theorem lockStep_requestStep {exchange : ℕ} {request : Request} {pc : RequestPc}
    (h : requestOrDrop env s exchange request pc = some move) :
    LockStep s (.request exchange request pc) move := by
  rw [requestOrDrop] at h
  split at h
  · cases h
    refine .inl ⟨sameRequests_dropRequest.requestLocked, ?_⟩
    rcases pc with _ | _ | (_ | _ | _) | pc | _ | _ | _
    case timedOut => cases pc <;> rfl
    all_goals rfl
  · cases pc with
    | lock =>
      rw [requestStep] at h
      split at h
      · cases h
      · next hfree =>
        cases h
        exact .inr (.inl ⟨Bool.eq_false_iff.mpr hfree, rfl, rfl, rfl⟩)
    | exchange pc =>
      obtain ⟨s', heard, pc', hexchange, hshared, hpc, htask⟩ := exchange_of_requestStep h
      have hlocked : move.shared.requestLocked = s'.requestLocked := by
        rcases hshared with hshared | ⟨answers, text, hshared⟩ <;> rw [hshared]
        rfl
      have hlocks : move.task.locksRequests = true := by
        rw [htask]
        cases hpc <;> rfl
      exact .inl ⟨hlocked.trans (sameRequests_exchangeStep hexchange).requestLocked, hlocks⟩
    | timedOut pc =>
      obtain ⟨_ | pc', hstep, htask, -⟩ := throughShutdown_cases h
      · exact .inl ⟨(sameRequests_shutdownStep hstep).requestLocked, by rw [htask]; rfl⟩
      · exact .inl ⟨(sameRequests_shutdownStep hstep).requestLocked, by rw [htask]; rfl⟩
    | unlock =>
      cases h
      exact .inr (.inr ⟨rfl, rfl, rfl⟩)
    | _ =>
      cases h
      exact .inl ⟨rfl, rfl⟩

theorem lockStep_healthStep {generation : ℕ} {pc : HealthPc}
    (h : healthStep env s generation pc = some move) : LockStep s (.health generation pc) move := by
  cases pc with
  | tryLock =>
    rw [healthStep] at h
    split at h
    · cases h
      exact .inl ⟨rfl, rfl⟩
    · next hfree =>
      cases h
      exact .inr (.inl ⟨Bool.eq_false_iff.mpr hfree, rfl, rfl, rfl⟩)
  | exchange exchange pc =>
    obtain ⟨heard, pc', hexchange, hpc, htask⟩ := exchange_of_healthStep h
    have hlocks : move.task.locksRequests = true := by
      rw [htask]
      rcases hpc with ⟨_, rfl⟩ | ⟨ok, rfl⟩ <;> rfl
    exact .inl ⟨(sameRequests_exchangeStep hexchange).requestLocked, hlocks⟩
  | unlock ok =>
    cases h
    refine .inr (.inr ⟨rfl, rfl, ?_⟩)
    rcases ok with _ | _ <;> rfl
  | setUnhealthy =>
    cases h
    exact .inl ⟨rfl, rfl⟩
  | _ =>
    rw [healthStep] at h
    cases h
    refine .inl ⟨rfl, ?_⟩
    split <;> rfl

theorem lockStep_of_step (h : step env s a = some move) : LockStep s a move := by
  rcases ha : a with _ | _ | _ | _ | _ | ⟨exchange, request, pc⟩ | ⟨generation, pc⟩ | _ | _ | _
  case request => exact lockStep_requestStep (ha ▸ h)
  case health => exact lockStep_healthStep (ha ▸ h)
  all_goals
    rw [ha] at h
    have hlocks : move.task.locksRequests = false := by
      rcases kind_of_step h with hkind | hfinished
      · exact locksRequests_of_kind (fun _ _ hrequest => nomatch hkind.symm.trans hrequest)
          fun _ hhealth => nomatch hkind.symm.trans hhealth
      · rw [hfinished]
        rfl
    exact .inl ⟨(sameRequests_of_step h nofun nofun).requestLocked, hlocks⟩

/-- At most one exchange is made at a time. -/
theorem requestGuard :
    Tasks.Guard program SidecarManager.requestLocked SidecarTask.locksRequests where
  free hfree := by
    rw [role_of_isFree hfree]
    rfl
  call {k s s' a} hbegins := by cases k <;> cases hbegins <;> exact ⟨rfl, rfl⟩
  step hstep := lockStep_of_step hstep
  spawn hstep hspawned := by
    rcases spawned_of_step hstep hspawned with rfl | ⟨generation, rfl⟩ | ⟨generation, rfl⟩ <;> rfl

end RequestLock

/-! ### What requests receive -/

section Receive

variable {env : SidecarEnv} {s : SidecarManager} {exchange : ℕ} {request : Request}
  {move : Tasks.Move SidecarManager SidecarTask}

theorem Paired.deliver {answers : List ℕ} {response : Response} (h : Paired s)
    (hanswers : answers = [exchange]) : Paired (s.deliver exchange answers response) := by
  intro d hd
  rcases List.mem_cons.mp hd with rfl | hd
  · exact hanswers
  · exact h d hd

/-- A dropped request awaits nothing. -/
theorem awaits_dropRequest {pc : RequestPc} (s' : SidecarManager) :
    (SidecarTask.request exchange request (dropRequest env s exchange request pc).2).Awaits s' := by
  rcases pc with _ | _ | (_ | _ | _) | pc | _ | _ | _
  case timedOut => cases pc <;> trivial
  all_goals trivial

/-- A request that is written to a helper on which nothing is left is the next to be answered. -/
theorem awaits_write (hpaired : Paired s) (hstdin : ∀ p, s.stdinWriter = some p → p < s.spawned)
    (hclean : env.written = .whole → ∀ p, s.stdinWriter = some p → (s.processes p).Clean)
    (h : requestStep env s exchange request (.exchange .write) = some move) :
    Paired move.shared ∧ move.task.Awaits move.shared := by
  rw [requestStep, exchangeStep] at h
  rcases hwriter : s.stdinWriter with _ | p
  · rw [hwriter] at h
    cases h
    exact ⟨hpaired, trivial⟩
  · rw [hwriter] at h
    have hpaired' : Paired (s.write p exchange request env.written) := by
      rw [Paired, SidecarManager.sameRequests_write.delivered]
      exact hpaired
    rcases hwritten : env.written with _ | _ | _
    · rw [hwritten] at h hpaired'
      cases h
      refine ⟨hpaired', hstdin p hwriter, ?_⟩
      have hheads : ((s.processes p).writeLine exchange request).Heads exchange :=
        (hclean hwritten p hwriter).heads_writeLine
      simpa [SidecarManager.write, SidecarManager.updateProcess] using hheads
    · rw [hwritten] at h hpaired'
      cases h
      exact ⟨hpaired', trivial⟩
    · rw [hwritten] at h
      cases h
      exact ⟨hpaired, trivial⟩

/-- A request that begins to read reads from the helper that it awaits an answer of. -/
theorem awaits_read {p : ℕ} (hpaired : Paired s)
    (hawaits : p < s.spawned ∧ (s.processes p).Heads exchange)
    (hreader : env.timedOut = false → ∀ q, s.stdoutReader = some q → q = p)
    (h : requestStep env s exchange request (.exchange (.read p)) = some move) :
    Paired move.shared ∧ move.task.Awaits move.shared := by
  rw [requestStep, exchangeStep] at h
  rcases htimedOut : env.timedOut with _ | _
  · simp only [htimedOut, Bool.false_eq_true, if_false] at h
    rcases hlocked : s.stdoutLocked with _ | _
    · rw [hlocked] at h
      rcases hq : s.stdoutReader with _ | q
      · simp only [hq, Bool.false_eq_true, if_false] at h
        cases h
        exact ⟨hpaired, trivial⟩
      · simp only [hq, Bool.false_eq_true, if_false] at h
        cases h
        exact ⟨hpaired, hreader htimedOut q hq, hawaits⟩
    · simp only [hlocked, if_true] at h
      cases h
  · simp only [htimedOut, if_true] at h
    cases h
    exact ⟨hpaired, trivial⟩

/-- A request that reads a line reads an answer to it, if any. -/
theorem awaits_readLine {p : ℕ} (hpaired : Paired s) (hp : p < s.spawned)
    (hheads : (s.processes p).Heads exchange)
    (h : requestStep env s exchange request (.exchange (.readLine p p)) = some move) :
    Paired move.shared ∧ move.task.Awaits move.shared := by
  rw [requestStep, exchangeStep] at h
  rcases houtput : (s.processes p).output with _ | ⟨line, rest⟩
  · simp only [houtput] at h
    rcases htimedOut : env.timedOut with _ | _
    · simp only [htimedOut, Bool.false_eq_true, if_false] at h
      rcases halive : (s.processes p).alive with _ | _
      · simp only [halive, Bool.false_eq_true, if_false] at h
        cases h
        exact ⟨hpaired, trivial⟩
      · simp only [halive, if_true] at h
        cases h
    · simp only [htimedOut, if_true] at h
      cases h
      exact ⟨hpaired, trivial⟩
  · simp only [houtput] at h
    rcases line with ⟨answers, response⟩ | _
    · have hanswers := hheads.answers_eq houtput
      cases response with
      | chunk text =>
        cases h
        refine ⟨Paired.deliver hpaired hanswers, hp, ?_⟩
        simpa [SidecarManager.deliver, SidecarManager.updateProcess] using hheads.chunk houtput
      | _ =>
        cases h
        exact ⟨hpaired, hanswers⟩
    · cases h
      exact ⟨hpaired, trivial⟩

/-- What a step of a request establishes. -/
theorem awaits_requestOrDrop {pc : RequestPc} (hpaired : Paired s)
    (hstdin : ∀ p, s.stdinWriter = some p → p < s.spawned)
    (hmatched : matched.step env s (.request exchange request pc))
    (hawaits : (SidecarTask.request exchange request pc).Awaits s)
    (h : requestOrDrop env s exchange request pc = some move) :
    Paired move.shared ∧ move.task.Awaits move.shared := by
  rw [requestOrDrop] at h
  split at h
  · cases h
    refine ⟨?_, awaits_dropRequest _⟩
    rw [Paired, sameRequests_dropRequest.delivered]
    exact hpaired
  · next hdropped =>
    have hkept : env.dropped = false := Bool.eq_false_iff.mpr hdropped
    cases pc with
    | exchange pc =>
      cases pc with
      | write => exact awaits_write hpaired hstdin (hmatched hkept) h
      | read p => exact awaits_read hpaired hawaits (hmatched hkept) h
      | readLine p q =>
        obtain ⟨rfl, hp, hheads⟩ := hawaits
        exact awaits_readLine hpaired hp hheads h
    | timedOut pc =>
      obtain ⟨pc', hstep, htask, -⟩ := throughShutdown_cases h
      refine ⟨?_, ?_⟩
      · rw [Paired, (sameRequests_shutdownStep hstep).delivered]
        exact hpaired
      · rw [htask]
        rcases pc' with _ | pc' <;> trivial
    | answered answers response =>
      cases h
      exact ⟨hpaired.deliver hawaits, trivial⟩
    | lock =>
      rw [requestStep] at h
      split at h <;> cases h
      exact ⟨hpaired, trivial⟩
    | _ =>
      cases h
      exact ⟨hpaired, trivial⟩

end Receive

/-! ### Pairing -/

section Pairing

variable {env : SidecarEnv} {s s' : SidecarManager} {a b : SidecarTask}
  {move : Tasks.Move SidecarManager SidecarTask} {c : Tasks.Config SidecarManager SidecarTask}

theorem awaits_of_kind (h : ∀ exchange request, a.kind ≠ .request exchange request) :
    a.Awaits s := by
  cases a with
  | request exchange request pc => exact absurd rfl (h exchange request)
  | _ => trivial

/-- A task that awaits something has the request lock. -/
theorem awaits_of_locksRequests (h : a.locksRequests = false) : a.Awaits s := by
  rcases a with _ | _ | _ | _ | _ | ⟨_, _, _ | _ | (_ | _ | _) | _ | _ | _ | _⟩ | _ | _ | _ | _ <;>
    trivial

/-- What a step establishes. -/
theorem awaits_of_step (hpaired : Paired s)
    (hstdin : ∀ p, s.stdinWriter = some p → p < s.spawned) (hmatched : matched.step env s a)
    (hawaits : a.Awaits s) (h : step env s a = some move) :
    Paired move.shared ∧ move.task.Awaits move.shared := by
  rcases ha : a with _ | _ | _ | _ | _ | ⟨exchange, request, pc⟩ | ⟨generation, pc⟩ | _ | _ | _
  case request =>
    rw [ha] at h hmatched hawaits
    exact awaits_requestOrDrop hpaired hstdin hmatched hawaits h
  all_goals
    rw [ha] at h
    have hawaits' : move.task.Awaits move.shared := by
      rcases kind_of_step h with hkind | hfinished
      · exact awaits_of_kind fun _ _ hrequest => nomatch hkind.symm.trans hrequest
      · rw [hfinished]
        trivial
    refine ⟨?_, hawaits'⟩
    rw [Paired, (requests_of_step h nofun).2]
    exact hpaired

/-- Another task that awaits something goes on to. -/
theorem awaits_beside (hlocks : b.locksRequests = true → a.locksRequests = false)
    (hawaits : b.Awaits s) (h : step env s a = some move) : b.Awaits move.shared := by
  rcases hb : b.locksRequests with _ | _
  · exact awaits_of_locksRequests hb
  · have ha := hlocks hb
    have hspawned := (handleStep_of_step h).spawned_le
    have hheads : ∀ {p exchange : ℕ}, p < s.spawned ∧ (s.processes p).Heads exchange →
        p < move.shared.spawned ∧ (move.shared.processes p).Heads exchange :=
      fun hp => ⟨hp.1.trans_le hspawned, hp.2.moves (moves_of_step hp.1 ha h)⟩
    rcases b with _ | _ | _ | _ | _ | ⟨_, _, _ | _ | (_ | _ | _) | _ | _ | _ | _⟩ | _ | _ | _ | _
    case request.exchange.read => exact hheads hawaits
    case request.exchange.readLine => exact ⟨hawaits.1, hheads hawaits.2⟩
    case request.answered => exact hawaits
    all_goals trivial

/-- What requests have received and await, and the spawns that are stored. -/
def awaited : Tasks.Assertions SidecarManager SidecarTask where
  shared s := Paired s ∧ ∀ p, s.stdinWriter = some p → p < s.spawned
  own s a := a.Awaits s ∧ ∀ p, a.role.stored = some p → p < s.spawned
  pair _ _ := True

theorem stable_awaited : Tasks.Assertions.Stable
    (Tasks.Guard.assertions SidecarManager.requestLocked SidecarTask.locksRequests) awaited program
    matched where
  symm _ := trivial
  call {k s s' a} _ hshared hbegins := by
    cases k <;> cases hbegins <;> exact ⟨hshared.2, trivial, nofun⟩
  callBeside {k s s' a b} _ _ _ hown hbegins := by
    cases k <;> cases hbegins <;> exact ⟨hown.2, trivial⟩
  step {env s a move} htaken := by
    obtain ⟨hpaired, hstdin⟩ := htaken.shared.2
    obtain ⟨hawaits, hstored⟩ := htaken.own.2
    have hstep := handleStep_of_step htaken.eq
    obtain ⟨hpaired', hawaits'⟩ :=
      awaits_of_step hpaired hstdin htaken.allowed hawaits htaken.eq
    exact ⟨⟨hpaired', hstep.stdinWriter_lt hstored hstdin⟩, hawaits', hstep.stored_lt hstored⟩
  beside {env s a b move} hbeside := by
    obtain ⟨hawaits, hstored⟩ := hbeside.ownOther.2
    have hlocks : b.locksRequests = true → a.locksRequests = false :=
      (Tasks.Guard.stable requestGuard (d := matched)).symm hbeside.pair.1
    refine ⟨⟨awaits_beside hlocks hawaits hbeside.eq, fun p hp => ?_⟩, trivial⟩
    exact (hstored p hp).trans_le (handleStep_of_step hbeside.eq).spawned_le
  spawn {env s a child move} htaken hspawned := by
    rcases spawned_of_step htaken.eq hspawned with rfl | ⟨generation, rfl⟩ | ⟨generation, rfl⟩ <;>
      exact ⟨⟨trivial, nofun⟩, trivial⟩
  spawnBeside _ _ := trivial

/-- **Answers are paired with their requests.** In every run of calls, loops and helpers, with
timeouts, shutdowns, respawns and dropped requests, in which each request is written to a helper on
which nothing is left and read from that helper: every chunk that a request forwards and every
terminal answer that it returns is to that request. -/
theorem paired_of_reaches (h : Tasks.Reaches program matched start c) : Paired c.shared := by
  have hhold : awaited.Hold c := by
    refine stable_awaited.of_reaches (fun _ => requestGuard.hold fun _ => rfl) ?_ h
    exact ⟨⟨nofun, nofun⟩, fun _ => ⟨trivial, nofun⟩, fun _ _ _ => trivial⟩
  exact hhold.shared.1

end Pairing

/-! ### An answer that is left over -/

instance (p : Process) : Decidable p.Clean :=
  decidable_of_iff (p.input = [] ∧ p.serving = none ∧ p.fragment = [] ∧
    ∀ line ∈ p.output, line = .unparseable)
    ⟨fun h => ⟨h.1, h.2.1, h.2.2.1, h.2.2.2⟩, fun h => ⟨h.input, h.serving, h.fragment, h.output⟩⟩

instance (k : SidecarCall) (s : SidecarManager) : Decidable (matched.call k s) :=
  inferInstanceAs (Decidable True)

instance (k : SidecarCall) (b : SidecarTask) : Decidable (matched.callBeside k b) :=
  inferInstanceAs (Decidable True)

instance (env : SidecarEnv) (s : SidecarManager) :
    (a : SidecarTask) → Decidable (matched.step env s a)
  | .request _ _ (.exchange .write) =>
    inferInstanceAs (Decidable (env.dropped = false → env.written = .whole →
      ∀ p ∈ s.stdinWriter, (s.processes p).Clean))
  | .request _ _ (.exchange (.read p)) =>
    inferInstanceAs (Decidable (env.dropped = false → env.timedOut = false →
      ∀ q ∈ s.stdoutReader, q = p))
  | .request _ _ (.exchange (.readLine _ _)) | .request _ _ .begin | .request _ _ .lock
  | .request _ _ (.timedOut _) | .request _ _ (.answered _ _) | .request _ _ .unlock
  | .request _ _ .leave | .free | .ensure _ | .spawn _ _ | .shutdown _ | .graceful _ | .health _ _
  | .idle _ _ | .helper _ | .finished => inferInstanceAs (Decidable True)

instance (env : SidecarEnv) (s : SidecarManager) (a b : SidecarTask) :
    Decidable (matched.stepBeside env s a b) :=
  inferInstanceAs (Decidable True)

/-- A sidecar is started. -/
def startsSidecar : List (Tasks.Label SidecarEnv SidecarCall) :=
  preparesSpawn 0 ++ starts 0 1 ++ smoothly 0 7 ++ starts 0 2 ++ starts 0 3

/-- Its helper does something else. -/
def helperDoes (act : HelperAct) : List (Tasks.Label SidecarEnv SidecarCall) :=
  [.run 1 ⟨.whole, false, false, false, false, false, act⟩ 9]

/-- A request is answered with a chunk before the text while another one waits, which is answered
next; then the health is checked. -/
def answeredInTurn : List (Tasks.Label SidecarEnv SidecarCall) :=
  startsSidecar ++ .call 4 (.sendRequest .generate) :: smoothly 4 4 ++ smoothly 1 1 ++
    helperDoes (.streams "Summary") ++ smoothly 4 2 ++
    .call 5 (.sendRequest .generate) :: smoothly 5 1 ++ smoothly 1 1 ++ smoothly 4 4 ++
    smoothly 5 3 ++ smoothly 1 2 ++ smoothly 5 4 ++ smoothly 2 7 ++ smoothly 1 1 ++ smoothly 2 2

/-- The helper prints something before it answers a request, and another request is made. -/
def leftOver : List (Tasks.Label SidecarEnv SidecarCall) :=
  startsSidecar ++ .call 4 (.sendRequest .generate) :: smoothly 4 4 ++ helperDoes .prints ++
    smoothly 4 3 ++ smoothly 1 2 ++ .call 5 (.sendRequest .generate) :: smoothly 5 6

theorem paired_answeredInTurn :
    ∃ c, program.runBelow matched 10 start answeredInTurn = some c ∧ Paired c.shared ∧
      c.shared.delivered = [⟨1, [1], .response "" none⟩, ⟨0, [0], .response "" none⟩,
        ⟨0, [0], .chunk "Summary"⟩] := by
  have houtcome : (program.runBelow matched 10 start answeredInTurn).map (·.shared.delivered) =
      some [⟨1, [1], .response "" none⟩, ⟨0, [0], .response "" none⟩,
        ⟨0, [0], .chunk "Summary"⟩] := by decide +kernel
  obtain ⟨c, hrun, hdelivered⟩ := Option.map_eq_some_iff.mp houtcome
  have hfree : ∀ env s a, matched.stepBeside env s a .free := fun _ _ _ => trivial
  have hreach : Tasks.Reaches program matched start c :=
    .of_runBelow (fun _ => trivial) hfree (fun _ _ => rfl) .refl hrun
  exact ⟨c, hrun, paired_of_reaches hreach, hdelivered⟩

/-- In general a request can receive the answer to another one. -/
theorem not_paired_leftOver :
    ¬∀ c, Tasks.Reaches program .free start c → Paired c.shared := by
  intro h
  have houtcome : (program.runBelow .free 10 start leftOver).map (·.shared.delivered) =
      some [⟨1, [0], .response "" none⟩] := by decide +kernel
  obtain ⟨c, hrun, hdelivered⟩ := Option.map_eq_some_iff.mp houtcome
  have hreach : Tasks.Reaches program .free start c := .of_runBelow_free (fun _ _ => rfl) hrun
  have hpaired := h c hreach ⟨1, [0], .response "" none⟩
  rw [hdelivered] at hpaired
  cases hpaired List.mem_cons_self

end Sidecar

end MeetilyLocal
