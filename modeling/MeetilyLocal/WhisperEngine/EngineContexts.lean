import MeetilyLocal.Library.Guard
import MeetilyLocal.WhisperEngine.EngineLease

/-!
# The contexts of the Whisper engine

`load_model`, `unload_model` and `get_or_create_state` of `whisper_engine/whisper_engine.rs`, in any
number at a time. Contexts have an identity here: loading a model twice gives two, and a state
belongs to the one it was created from. Without it these are the programs that the live workers and
the batch jobs go through (`ContextEngine.forget_loadStep` and its like).

The context, the name of the model and the pool are behind locks of their own. A load writes the
first two one after the other and does not look at the pool, and a state is created from a context
that was read before the pool was locked. Where a load finds the pool empty and its own context
still there when it stores the name, and a state is put into the pool while its context is the
current one, the three agree whenever no load or unload is in progress
(`EngineContexts.consistent_of_reaches`).
-/

namespace MeetilyLocal

/-- A context. -/
structure EngineContext : Type where
  /-- which one it is -/
  id : ℕ
  /-- the model whose weights it has -/
  model : String
  deriving DecidableEq

/-- The engine; a pooled state is named by the context it was created from. -/
structure ContextEngine : Type where
  /-- `current_context` -/
  currentContext : Option EngineContext
  /-- `unload_model` has it locked -/
  contextLocked : Bool
  /-- `current_model` -/
  currentModel : Option String
  /-- `unload_model` has it locked -/
  modelLocked : Bool
  /-- `state_pool` -/
  statePool : DecodePurpose → Option EngineContext
  /-- the number of the next context -/
  nextContext : ℕ

/-- Where `get_or_create_state` is. -/
inductive StatePc : Type where
  /-- looking in the pool -/
  | lookInPool : StatePc
  /-- reading the context -/
  | readContext : StatePc
  /-- `pool_get_or_insert` with a state of the context -/
  | insert : EngineContext → StatePc
  deriving DecidableEq

namespace ContextEngine

/-- A new engine. -/
def initial : ContextEngine := ⟨none, false, none, false, fun _ => none, 0⟩

/-- `unload_model` -/
def unloadStep (e : ContextEngine) : UnloadPc → Option (ContextEngine × Goes UnloadPc)
  | .takeContext =>
    if e.contextLocked then none
    else some ({ e with currentContext := none, contextLocked := true }, .to .takeModel)
  | .takeModel =>
    if e.modelLocked then none
    else some ({ e with currentModel := none, modelLocked := true }, .to .clearPool)
  | .clearPool =>
    some ({ e with statePool := fun _ => none, contextLocked := false, modelLocked := false },
      .ends true)

/-- `load_model` -/
def loadStep (target : String) (env : EngineEnv) (e : ContextEngine) :
    LoadPc → Option (ContextEngine × Goes LoadPc)
  | .lookUp => some (e, if env.ok then .to .readCurrent else .ends false)
  | .readCurrent =>
    if e.modelLocked then none
    else
      match e.currentModel with
      | some current =>
        some (e, if current = target then .ends true else .to (.unload .takeContext))
      | none => some (e, .to .readWeights)
  | .unload pc =>
    match e.unloadStep pc with
    | some (e', .to pc') => some (e', .to (.unload pc'))
    | some (e', .ends _) => some (e', .to .readWeights)
    | none => none
  | .readWeights => some (e, if env.ok then .to .setContext else .ends false)
  | .setContext =>
    if e.contextLocked then none
    else some ({ e with
      currentContext := some ⟨e.nextContext, target⟩, nextContext := e.nextContext + 1 },
      .to .setModel)
  | .setModel =>
    if e.modelLocked then none else some ({ e with currentModel := some target }, .ends true)

/-- `get_or_create_state` -/
def stateStep (purpose : DecodePurpose) (env : EngineEnv) (e : ContextEngine) :
    StatePc → Option (ContextEngine × Goes StatePc)
  | .lookInPool =>
    some (e, if (e.statePool purpose).isSome then .ends true else .to .readContext)
  | .readContext =>
    if e.contextLocked then none
    else
      match e.currentContext with
      | some context => some (e, .to (.insert context))
      | none => some (e, .ends false)
  | .insert context =>
    if (e.statePool purpose).isSome then some (e, .ends true)
    else if env.ok then
      some ({ e with statePool := Function.update e.statePool purpose (some context) }, .ends true)
    else some (e, .ends false)

end ContextEngine

/-! ## Without the identity of contexts -/

/-- Where `get_or_create_state` is, for those who do not know contexts apart. -/
def StatePc.forget : StatePc → DecodePc
  | .lookInPool => .lookInPool
  | .readContext => .readContext
  | .insert context => .insert context.model

/-- Where a program goes on, seen otherwise. -/
def Goes.map {Pc Pc' : Type} (f : Pc → Pc') : Goes Pc → Goes Pc'
  | .to pc => .to (f pc)
  | .ends ok => .ends ok

namespace ContextEngine

/-- The engine as the live workers and the batch jobs know it. -/
def forget (e : ContextEngine) : WhisperEngine where
  currentContext := e.currentContext.map (·.model)
  contextLocked := e.contextLocked
  currentModel := e.currentModel
  modelLocked := e.modelLocked
  statePool purpose := (e.statePool purpose).map (·.model)

variable (e : ContextEngine)

theorem forget_unloadStep (pc : UnloadPc) :
    e.forget.unloadStep pc = (e.unloadStep pc).map fun result => (result.1.forget, result.2) := by
  cases pc with
  | takeContext =>
    rcases hlocked : e.contextLocked with _ | _
    · simp [unloadStep, WhisperEngine.unloadStep, forget, hlocked]
    · simp [unloadStep, WhisperEngine.unloadStep, forget, hlocked]
  | takeModel =>
    rcases hlocked : e.modelLocked with _ | _
    · simp [unloadStep, WhisperEngine.unloadStep, forget, hlocked]
    · simp [unloadStep, WhisperEngine.unloadStep, forget, hlocked]
  | clearPool => rfl

theorem forget_loadStep (target : String) (env : EngineEnv) (pc : LoadPc) :
    e.forget.loadStep target env pc =
      (e.loadStep target env pc).map fun result => (result.1.forget, result.2) := by
  cases pc with
  | lookUp => rfl
  | readCurrent =>
    rcases hlocked : e.modelLocked with _ | _
    · rcases hmodel : e.currentModel with _ | current
      · simp [loadStep, WhisperEngine.loadStep, forget, hlocked, hmodel]
      · simp [loadStep, WhisperEngine.loadStep, forget, hlocked, hmodel]
    · simp [loadStep, WhisperEngine.loadStep, forget, hlocked]
  | unload pc =>
    rw [WhisperEngine.loadStep, forget_unloadStep, loadStep]
    rcases e.unloadStep pc with _ | ⟨e', pc' | ok⟩
    · rfl
    · rfl
    · rfl
  | readWeights => rfl
  | setContext =>
    rcases hlocked : e.contextLocked with _ | _
    · simp [loadStep, WhisperEngine.loadStep, forget, hlocked]
    · simp [loadStep, WhisperEngine.loadStep, forget, hlocked]
  | setModel =>
    rcases hlocked : e.modelLocked with _ | _
    · simp [loadStep, WhisperEngine.loadStep, forget, hlocked]
    · simp [loadStep, WhisperEngine.loadStep, forget, hlocked]

theorem forget_stateStep (purpose : DecodePurpose) (env : EngineEnv) (pc : StatePc) :
    e.forget.decodeStep purpose env pc.forget = (e.stateStep purpose env pc).map fun result =>
      (result.1.forget, result.2.map StatePc.forget) := by
  cases pc with
  | lookInPool =>
    rcases hpool : e.statePool purpose with _ | context
    · simp [stateStep, WhisperEngine.decodeStep, forget, StatePc.forget, Goes.map, hpool]
    · simp [stateStep, WhisperEngine.decodeStep, forget, StatePc.forget, Goes.map, hpool]
  | readContext =>
    rcases hlocked : e.contextLocked with _ | _
    · rcases hcontext : e.currentContext with _ | context
      · simp [stateStep, WhisperEngine.decodeStep, forget, StatePc.forget, Goes.map, hlocked,
          hcontext]
      · simp [stateStep, WhisperEngine.decodeStep, forget, StatePc.forget, Goes.map, hlocked,
          hcontext]
    · simp [stateStep, WhisperEngine.decodeStep, forget, StatePc.forget, hlocked]
  | insert context =>
    rcases hpool : e.statePool purpose with _ | pooled
    · rcases hok : env.ok with _ | _
      · simp [stateStep, WhisperEngine.decodeStep, forget, StatePc.forget, Goes.map, hpool, hok]
      · simp only [WhisperEngine.decodeStep, StatePc.forget, forget, stateStep, hpool, hok,
          Option.map_none, Option.isSome_none, Bool.false_eq_true, if_false, if_true,
          Option.map_some, Goes.map, Option.some.injEq, Prod.mk.injEq, WhisperEngine.mk.injEq,
          true_and, and_true]
        exact (Function.comp_update (Option.map (·.model)) e.statePool purpose (some context)).symm
    · simp [stateStep, WhisperEngine.decodeStep, forget, StatePc.forget, Goes.map, hpool]

end ContextEngine

/-! ## The tasks -/

/-- A call on the engine. -/
inductive EngineUse : Type where
  /-- a call that does not exist -/
  | free : EngineUse
  /-- `load_model` -/
  | load : String → LoadPc → EngineUse
  /-- `unload_model` -/
  | unload : UnloadPc → EngineUse
  /-- `get_or_create_state` -/
  | state : DecodePurpose → StatePc → EngineUse
  /-- a call that has returned -/
  | finished : EngineUse
  deriving DecidableEq

/-- The calls from outside. -/
inductive UseCall : Type where
  /-- `load_model` -/
  | load : String → UseCall
  /-- `unload_model` -/
  | unload : UseCall
  /-- `get_or_create_state` -/
  | state : DecodePurpose → UseCall

namespace EngineContexts

/-- A step of a call: `within` is where it is while it lasts. -/
def through {Pc : Type} (within : Pc → EngineUse) :
    Option (ContextEngine × Goes Pc) → Option (Tasks.Move ContextEngine EngineUse)
  | some (e, .to pc) => some ⟨e, within pc, none⟩
  | some (e, .ends _) => some ⟨e, .finished, none⟩
  | none => none

/-- How a call from outside begins. -/
def begins : UseCall → ContextEngine → Option (ContextEngine × EngineUse)
  | .load target, e => some (e, .load target .lookUp)
  | .unload, e => some (e, .unload .takeContext)
  | .state purpose, e => some (e, .state purpose .lookInPool)

/-- One step of a call. -/
def step (env : EngineEnv) (e : ContextEngine) :
    EngineUse → Option (Tasks.Move ContextEngine EngineUse)
  | .load target pc => through (.load target) (e.loadStep target env pc)
  | .unload pc => through .unload (e.unloadStep pc)
  | .state purpose pc => through (.state purpose) (e.stateStep purpose env pc)
  | .free | .finished => none

/-- The calls on the engine. -/
def program : Tasks.Program ContextEngine EngineUse EngineEnv UseCall where
  isFree a := decide (a = .free)
  begins := begins
  step := step

/-- The configuration at program start. -/
def start : Tasks.Config ContextEngine EngineUse := ⟨.initial, fun _ => .free⟩

end EngineContexts

/-! ## What a step changes -/

/-- The part of a call. -/
inductive UseRole : Type where
  /-- it is not in the middle of anything -/
  | quiet : UseRole
  /-- a load that stores its context -/
  | storesContext : String → UseRole
  /-- a load that has stored its context and not the name -/
  | namesModel : String → UseRole
  /-- an unload that takes the context -/
  | takesContext : UseRole
  /-- an unload that has taken the context -/
  | takesModel : UseRole
  /-- an unload that has taken the name as well -/
  | clearsPool : UseRole
  /-- a state that is put into the pool -/
  | inserts : DecodePurpose → EngineContext → UseRole

namespace UseRole

/-- It has the context locked. -/
def locks : UseRole → Bool
  | takesModel | clearsPool => true
  | _ => false

/-- It has changed the context and not the name. -/
def parts : UseRole → Bool
  | namesModel _ | takesModel => true
  | _ => false

end UseRole

/-- The part of an unload. -/
def UnloadPc.role : UnloadPc → UseRole
  | .takeContext => .takesContext
  | .takeModel => .takesModel
  | .clearPool => .clearsPool

/-- The part of a call. -/
def EngineUse.role : EngineUse → UseRole
  | .load target .setContext => .storesContext target
  | .load target .setModel => .namesModel target
  | .load _ (.unload pc) | .unload pc => pc.role
  | .state purpose (.insert context) => .inserts purpose context
  | _ => .quiet

/-- What a step can do to the engine, by the part of the call that takes it. -/
inductive UseStep (ok : Bool) (e : ContextEngine) :
    UseRole → ContextEngine → UseRole → Prop where
  /-- nothing -/
  | stays {r r' : UseRole} : r.locks = false → r.parts = false → r'.locks = false →
      r'.parts = false → UseStep ok e r e r'
  /-- a load stores its context -/
  | stores {target : String} : e.contextLocked = false →
      UseStep ok e (.storesContext target)
        { e with
          currentContext := some ⟨e.nextContext, target⟩, nextContext := e.nextContext + 1 }
        (.namesModel target)
  /-- and the name of its model -/
  | names {target : String} :
      UseStep ok e (.namesModel target) { e with currentModel := some target } .quiet
  /-- an unload takes the context -/
  | takes : e.contextLocked = false →
      UseStep ok e .takesContext { e with currentContext := none, contextLocked := true }
        .takesModel
  /-- and the name of the model -/
  | forgets :
      UseStep ok e .takesModel { e with currentModel := none, modelLocked := true } .clearsPool
  /-- and clears the pool -/
  | clears :
      UseStep ok e .clearsPool
        { e with statePool := fun _ => none, contextLocked := false, modelLocked := false } .quiet
  /-- a state is put into the pool -/
  | inserts {purpose : DecodePurpose} {context : EngineContext} : e.statePool purpose = none →
      ok = true →
      UseStep ok e (.inserts purpose context)
        { e with statePool := Function.update e.statePool purpose (some context) } .quiet

namespace EngineContexts

variable {env : EngineEnv} {e : ContextEngine} {a : EngineUse}
  {move : Tasks.Move ContextEngine EngineUse}

/-- What an unload does. -/
theorem useStep_unloadStep {pc : UnloadPc} {e' : ContextEngine} {goes : Goes UnloadPc} {ok : Bool}
    (h : e.unloadStep pc = some (e', goes)) :
    UseStep ok e pc.role e' (match goes with | .to pc' => pc'.role | .ends _ => .quiet) := by
  cases pc with
  | takeContext =>
    rw [ContextEngine.unloadStep] at h
    split at h
    · cases h
    · next hfree =>
      cases h
      exact .takes (Bool.eq_false_iff.mpr hfree)
  | takeModel =>
    rw [ContextEngine.unloadStep] at h
    split at h
    · cases h
    · cases h
      exact .forgets
  | clearPool =>
    cases h
    exact .clears

/-- What a load does. -/
theorem useStep_load {target : String} {pc : LoadPc}
    (h : step env e (.load target pc) = some move) :
    UseStep env.ok e (EngineUse.load target pc).role move.shared move.task.role := by
  rw [step] at h
  cases pc with
  | lookUp =>
    rw [ContextEngine.loadStep] at h
    rcases hok : env.ok with _ | _ <;> rw [hok] at h <;> cases h <;> exact .stays rfl rfl rfl rfl
  | readCurrent =>
    rw [ContextEngine.loadStep] at h
    rcases hlocked : e.modelLocked with _ | _
    · rw [hlocked] at h
      rcases hmodel : e.currentModel with _ | current
      · rw [hmodel] at h
        cases h
        exact .stays rfl rfl rfl rfl
      · simp only [hmodel, Bool.false_eq_true, if_false] at h
        split at h <;> cases h <;> exact .stays rfl rfl rfl rfl
    · rw [hlocked] at h
      cases h
  | unload pc =>
    rw [ContextEngine.loadStep] at h
    rcases hunload : e.unloadStep pc with _ | ⟨e', pc' | ok⟩
    · rw [hunload] at h
      cases h
    · rw [hunload] at h
      cases h
      exact useStep_unloadStep hunload
    · rw [hunload] at h
      cases h
      exact useStep_unloadStep hunload
  | readWeights =>
    rw [ContextEngine.loadStep] at h
    rcases hok : env.ok with _ | _ <;> rw [hok] at h <;> cases h <;> exact .stays rfl rfl rfl rfl
  | setContext =>
    rw [ContextEngine.loadStep] at h
    split at h
    · cases h
    · next hfree =>
      cases h
      exact .stores (Bool.eq_false_iff.mpr hfree)
  | setModel =>
    rw [ContextEngine.loadStep] at h
    split at h
    · cases h
    · cases h
      exact .names

/-- What `get_or_create_state` does. -/
theorem useStep_state {purpose : DecodePurpose} {pc : StatePc}
    (h : step env e (.state purpose pc) = some move) :
    UseStep env.ok e (EngineUse.state purpose pc).role move.shared move.task.role := by
  rw [step] at h
  cases pc with
  | lookInPool =>
    rw [ContextEngine.stateStep] at h
    rcases hpool : e.statePool purpose with _ | pooled <;> rw [hpool] at h <;> cases h <;>
      exact .stays rfl rfl rfl rfl
  | readContext =>
    rw [ContextEngine.stateStep] at h
    rcases hlocked : e.contextLocked with _ | _
    · rw [hlocked] at h
      rcases hcontext : e.currentContext with _ | context <;> rw [hcontext] at h <;> cases h <;>
        exact .stays rfl rfl rfl rfl
    · rw [hlocked] at h
      cases h
  | insert context =>
    rw [ContextEngine.stateStep] at h
    split at h
    · cases h
      exact .stays rfl rfl rfl rfl
    · next hempty =>
      split at h
      · next hok =>
        cases h
        rw [hok]
        exact .inserts (by simpa using hempty) rfl
      · cases h
        exact .stays rfl rfl rfl rfl

/-- **Inversion.** What a step does to the engine. -/
theorem useStep_of_step (h : step env e a = some move) :
    UseStep env.ok e a.role move.shared move.task.role := by
  cases a with
  | load target pc => exact useStep_load h
  | state purpose pc => exact useStep_state h
  | unload pc =>
    rw [step] at h
    rcases hunload : e.unloadStep pc with _ | ⟨e', pc' | ok⟩
    · rw [hunload] at h
      cases h
    · rw [hunload] at h
      cases h
      exact useStep_unloadStep hunload
    · rw [hunload] at h
      cases h
      exact useStep_unloadStep hunload
  | free => cases h
  | finished => cases h

/-! ## What agrees -/

/-- The context, the name of the model and the pool agree. -/
structure Consistent (e : ContextEngine) : Prop where
  /-- there is a name if there is a context, the name of its model -/
  named : e.currentModel = e.currentContext.map (·.model)
  /-- every state was created from the context -/
  pooled : ∀ purpose context, e.statePool purpose = some context →
    e.currentContext = some context

/-- A load or an unload is in progress. -/
def changes : EngineUse → Bool
  | .load _ _ | .unload _ => true
  | _ => false

/-- A step that leaves the three in agreement, in a call with this part: a load stores its context
while the pool is empty, and the name of its model while the context is one of that model; and a
state is put into the pool while its context is the current one. -/
def Orderly (ok : Bool) (e : ContextEngine) : UseRole → Prop
  | .storesContext _ => ∀ purpose, e.statePool purpose = none
  | .namesModel target => e.currentContext.map (·.model) = some target
  | .inserts purpose context =>
    e.statePool purpose = none → ok = true → e.currentContext = some context
  | _ => True

/-- Every step is orderly. -/
def orderly : Tasks.Discipline ContextEngine EngineUse EngineEnv UseCall where
  call _ _ := True
  callBeside _ _ := True
  step env e a := Orderly env.ok e a.role
  stepBeside _ _ _ _ := True

end EngineContexts

namespace UseStep

variable {ok : Bool} {e e' : ContextEngine} {r r' : UseRole}

/-- A step leaves the lock on the context, acquires it or releases it. -/
theorem contextLocked (h : UseStep ok e r e' r') :
    (e'.contextLocked = e.contextLocked ∧ r'.locks = r.locks) ∨
    (e.contextLocked = false ∧ r.locks = false ∧ e'.contextLocked = true ∧ r'.locks = true) ∨
    (r.locks = true ∧ e'.contextLocked = false ∧ r'.locks = false) := by
  cases h with
  | stays hlocks _ hlocks' => exact .inl ⟨rfl, hlocks'.trans hlocks.symm⟩
  | stores => exact .inl ⟨rfl, rfl⟩
  | names => exact .inl ⟨rfl, rfl⟩
  | takes hfree => exact .inr (.inl ⟨hfree, rfl, rfl, rfl⟩)
  | forgets => exact .inl ⟨rfl, rfl⟩
  | clears => exact .inr (.inr ⟨rfl, rfl, rfl⟩)
  | inserts => exact .inl ⟨rfl, rfl⟩

/-- While the context is locked, none is stored. -/
theorem currentContext (h : UseStep ok e r e' r') (hlocked : e.contextLocked = true)
    (hnone : e.currentContext = none) : e'.currentContext = none := by
  cases h with
  | stores hfree =>
    rw [hlocked] at hfree
    cases hfree
  | takes => rfl
  | _ => exact hnone

/-- What the task that locks the context leaves. -/
theorem emptied (h : UseStep ok e r e' r') (hnone : r.locks = true → e.currentContext = none)
    (hlocks : r'.locks = true) : e'.currentContext = none := by
  cases h with
  | stays _ _ hlocks' =>
    rw [hlocks'] at hlocks
    cases hlocks
  | takes => rfl
  | forgets => exact hnone rfl
  | _ => cases hlocks

/-- An orderly step that leaves the name and the context apart for nobody leaves them in
agreement. -/
theorem named (h : UseStep ok e r e' r') (horderly : EngineContexts.Orderly ok e r)
    (hnone : r.locks = true → e.currentContext = none)
    (hnamed : r.parts = false → e.currentModel = e.currentContext.map (·.model))
    (hparts : r'.parts = false) : e'.currentModel = e'.currentContext.map (·.model) := by
  cases h with
  | stays _ hparts => exact hnamed hparts
  | stores => cases hparts
  | names => exact horderly.symm
  | takes => cases hparts
  | forgets => simp [hnone rfl]
  | clears => exact hnamed rfl
  | inserts => exact hnamed rfl

/-- And so with the pool. -/
theorem pooled (h : UseStep ok e r e' r') (horderly : EngineContexts.Orderly ok e r)
    (hpooled : r.locks = false → ∀ purpose context, e.statePool purpose = some context →
      e.currentContext = some context)
    (hlocks : r'.locks = false) : ∀ purpose context, e'.statePool purpose = some context →
      e'.currentContext = some context := by
  cases h with
  | stays hlocks => exact hpooled hlocks
  | stores =>
    intro purpose context hstate
    have hempty : e.statePool purpose = none := horderly purpose
    exact absurd (hempty.symm.trans hstate) nofun
  | names => exact hpooled rfl
  | takes => cases hlocks
  | forgets => cases hlocks
  | clears => exact fun _ _ => nofun
  | @inserts purpose context hempty hok =>
    intro other state hstate
    have hstate : Function.update e.statePool purpose (some context) other = some state := hstate
    rcases eq_or_ne other purpose with rfl | hne
    · rw [Function.update_self] at hstate
      obtain rfl := Option.some.inj hstate
      exact horderly hempty hok
    · rw [Function.update_of_ne hne] at hstate
      exact hpooled rfl other state hstate

end UseStep

namespace EngineContexts

variable {env : EngineEnv} {e : ContextEngine} {a : EngineUse}
  {move : Tasks.Move ContextEngine EngineUse}
  {d : Tasks.Discipline ContextEngine EngineUse EngineEnv UseCall}
  {c : Tasks.Config ContextEngine EngineUse}

/-! ### Runs -/

theorem role_begins {k : UseCall} {e e' : ContextEngine} {a : EngineUse}
    (h : begins k e = some (e', a)) :
    e' = e ∧ a.role.locks = false ∧ a.role.parts = false := by
  cases k <;> cases h <;> exact ⟨rfl, rfl, rfl⟩

/-- Nothing is spawned. -/
theorem spawned_of_step (h : step env e a = some move) : move.spawned = none := by
  have hthrough : ∀ {Pc : Type} {within : Pc → EngineUse}
      {result : Option (ContextEngine × Goes Pc)}, through within result = some move →
      move.spawned = none := by
    intro Pc within result heq
    rcases result with _ | ⟨e', pc | ok⟩
    · cases heq
    · cases heq
      rfl
    · cases heq
      rfl
  cases a with
  | load target pc => exact hthrough h
  | unload pc => exact hthrough h
  | state purpose pc => exact hthrough h
  | free => cases h
  | finished => cases h

/-- The lock on the context. -/
theorem contextGuard : Tasks.Guard program (fun e => e.contextLocked) fun a => a.role.locks where
  free {a} hfree := by
    obtain rfl := of_decide_eq_true hfree
    rfl
  call hbegins := by
    obtain ⟨rfl, hlocks, -⟩ := role_begins hbegins
    exact ⟨rfl, hlocks⟩
  step hstep := (useStep_of_step hstep).contextLocked
  spawn hstep hspawned := by
    rw [spawned_of_step hstep] at hspawned
    cases hspawned

/-- Who has the context locked. -/
def locked : Tasks.Assertions ContextEngine EngineUse :=
  Tasks.Guard.assertions (fun e => e.contextLocked) fun a => a.role.locks

/-- Who has the context locked has taken it. -/
def emptied : Tasks.Assertions ContextEngine EngineUse where
  shared _ := True
  own e a := a.role.locks = true → e.currentContext = none
  pair _ _ := True

theorem hold_locked (h : Tasks.Reaches program d start c) : locked.Hold c :=
  contextGuard.hold (fun _ => rfl) h

theorem stable_emptied : Tasks.Assertions.Stable locked emptied program d where
  symm _ := trivial
  call _ _ hbegins := by
    obtain ⟨-, hlocks, -⟩ := role_begins hbegins
    exact ⟨trivial, fun hlocked => absurd (hlocks.symm.trans hlocked) nofun⟩
  callBeside _ _ _ hown hbegins := by
    obtain ⟨rfl, -⟩ := role_begins hbegins
    exact ⟨hown.2, trivial⟩
  step {env e a move} htaken := ⟨trivial, (useStep_of_step htaken.eq).emptied htaken.own.2⟩
  beside {env e a b move} hbeside := by
    refine ⟨fun hlocks => ?_, trivial⟩
    exact (useStep_of_step hbeside.eq).currentContext (hbeside.ownOther.1 hlocks)
      (hbeside.ownOther.2 hlocks)
  spawn htaken hspawned := by
    rw [spawned_of_step htaken.eq] at hspawned
    cases hspawned
  spawnBeside _ _ := trivial

theorem hold_emptied (h : Tasks.Reaches program d start c) : emptied.Hold c := by
  refine stable_emptied.of_reaches (fun _ => hold_locked) ?_ h
  exact ⟨trivial, fun _ => nofun, fun _ _ _ => trivial⟩

/-- While no call has the name and the context apart, they agree. -/
theorem named_of_reaches (h : Tasks.Reaches program orderly start c)
    (hparts : ∀ t, ¬(c.tasks t).role.parts = true) :
    c.shared.currentModel = c.shared.currentContext.map (·.model) := by
  have habsent : Tasks.Absent emptied.Hold program orderly (fun a => a.role.parts = true)
      (fun e => e.currentModel = e.currentContext.map (·.model)) := {
    free := by
      intro a hfree
      obtain rfl := of_decide_eq_true hfree
      exact nofun
    call := by
      intro c t k e' a _ _ hbegins _ hnamed
      obtain ⟨rfl, -⟩ := role_begins hbegins
      exact hnamed
    stay := by
      intro c t child env move hknown hallow hstep _ hmoved hnamed
      exact (useStep_of_step hstep).named hallow.1 (hknown.own t) (fun _ => hnamed)
        (Bool.eq_false_iff.mpr hmoved)
    leave := by
      intro c t child env move hknown hallow hstep hbusy hmoved _ _
      refine (useStep_of_step hstep).named hallow.1 (hknown.own t) (fun hparts => ?_)
        (Bool.eq_false_iff.mpr hmoved)
      exact absurd (hparts.symm.trans hbusy) nofun }
  exact habsent.of_reaches (fun _ => hold_emptied) (fun _ => rfl) h hparts

/-- While no call has the context locked, every state was created from it. -/
theorem pooled_of_reaches (h : Tasks.Reaches program orderly start c)
    (hlocks : ∀ t, ¬(c.tasks t).role.locks = true) :
    ∀ purpose context, c.shared.statePool purpose = some context →
      c.shared.currentContext = some context := by
  have habsent : Tasks.Absent (fun _ => True) program orderly (fun a => a.role.locks = true)
      (fun e => ∀ purpose context, e.statePool purpose = some context →
        e.currentContext = some context) := {
    free := by
      intro a hfree
      obtain rfl := of_decide_eq_true hfree
      exact nofun
    call := by
      intro c t k e' a _ _ hbegins _ hpooled
      obtain ⟨rfl, -⟩ := role_begins hbegins
      exact hpooled
    stay := by
      intro c t child env move _ hallow hstep _ hmoved hpooled
      exact (useStep_of_step hstep).pooled hallow.1 (fun _ => hpooled)
        (Bool.eq_false_iff.mpr hmoved)
    leave := by
      intro c t child env move _ hallow hstep hbusy hmoved _ _
      refine (useStep_of_step hstep).pooled hallow.1 (fun hlocks => ?_)
        (Bool.eq_false_iff.mpr hmoved)
      exact absurd (hlocks.symm.trans hbusy) nofun }
  exact habsent.of_reaches (fun _ _ => trivial) (fun _ _ _ hstate => by cases hstate) h hlocks

theorem changes_of_role {a : EngineUse} (h : a.role.parts = true ∨ a.role.locks = true) :
    changes a = true := by
  cases a with
  | state purpose pc => cases pc <;> rcases h with h | h <;> cases h
  | free => rcases h with h | h <;> cases h
  | finished => rcases h with h | h <;> cases h
  | _ => rfl

/-- **The engine is consistent.** In every run of loads, unloads and uses of states in which each
step is orderly: whenever no load or unload is in progress, the name is that of the context's model
and every pooled state was created from the context. -/
theorem consistent_of_reaches (h : Tasks.Reaches program orderly start c)
    (hidle : ∀ t, changes (c.tasks t) = false) : Consistent c.shared := by
  refine ⟨named_of_reaches h fun t hparts => ?_, pooled_of_reaches h fun t hlocks => ?_⟩
  · exact absurd ((hidle t).symm.trans (changes_of_role (.inl hparts))) nofun
  · exact absurd ((hidle t).symm.trans (changes_of_role (.inr hlocks))) nofun

/-! ### A state of a context that is gone -/

instance (ok : Bool) (e : ContextEngine) : (r : UseRole) → Decidable (Orderly ok e r)
  | .storesContext _ =>
    decidable_of_iff (e.statePool .finalPath = none ∧ e.statePool .partialPath = none)
      ⟨fun h purpose => by cases purpose; exacts [h.1, h.2], fun h => ⟨h _, h _⟩⟩
  | .namesModel target =>
    inferInstanceAs (Decidable (e.currentContext.map (·.model) = some target))
  | .inserts purpose context =>
    inferInstanceAs (Decidable (e.statePool purpose = none → ok = true →
      e.currentContext = some context))
  | .quiet | .takesContext | .takesModel | .clearsPool => inferInstanceAs (Decidable True)

instance (k : UseCall) (e : ContextEngine) : Decidable (orderly.call k e) :=
  inferInstanceAs (Decidable True)

instance (k : UseCall) (b : EngineUse) : Decidable (orderly.callBeside k b) :=
  inferInstanceAs (Decidable True)

instance (env : EngineEnv) (e : ContextEngine) (a : EngineUse) : Decidable (orderly.step env e a) :=
  inferInstanceAs (Decidable (Orderly env.ok e a.role))

instance (env : EngineEnv) (e : ContextEngine) (a b : EngineUse) :
    Decidable (orderly.stepBeside env e a b) :=
  inferInstanceAs (Decidable True)

/-- A call with steps in which all goes well. -/
def callSteps (t n : ℕ) (k : UseCall) : List (Tasks.Label EngineEnv UseCall) :=
  .call t k :: List.replicate n (.run t ⟨true, false, false, false, none, .noModel, none⟩ 9)

/-- A model is loaded and used, and another one is loaded and used. -/
def twoModels : List (Tasks.Label EngineEnv UseCall) :=
  callSteps 0 5 (.load "base") ++ callSteps 1 3 (.state .finalPath) ++
    callSteps 2 8 (.load "large-v3") ++ callSteps 3 3 (.state .finalPath)

/-- A model is loaded, and unloaded while a state is created. -/
def unloadedMeanwhile : List (Tasks.Label EngineEnv UseCall) :=
  callSteps 0 5 (.load "base") ++ callSteps 1 2 (.state .finalPath) ++ callSteps 2 3 .unload ++
    [.run 1 ⟨true, false, false, false, none, .noModel, none⟩ 9]

theorem consistent_twoModels :
    ∃ c, program.runBelow orderly 10 start twoModels = some c ∧ Consistent c.shared ∧
      c.shared.statePool .finalPath = some ⟨1, "large-v3"⟩ := by
  obtain ⟨c, hrun, hc⟩ := Option.map_eq_some_iff.mp
    (show (program.runBelow orderly 10 start twoModels).map (fun c =>
      (c.shared.statePool .finalPath, (List.range 10).all fun t => !changes (c.tasks t))) =
        some (some ⟨1, "large-v3"⟩, true) from rfl)
  obtain ⟨hpool, hidle⟩ := Prod.mk.inj hc
  have hfree : ∀ env e a, orderly.stepBeside env e a .free := fun _ _ _ => trivial
  have hreach : Tasks.Reaches program orderly start c :=
    .of_runBelow (fun _ => trivial) hfree (fun _ _ => rfl) .refl hrun
  have hdone := Tasks.Program.idle_of_runBelow hrun (fun _ _ => rfl) hidle
  exact ⟨c, hrun, consistent_of_reaches hreach hdone, hpool⟩

/-- In general a pooled state outlives its context. -/
theorem not_consistent_unloadedMeanwhile :
    ¬∀ c, Tasks.Reaches program .free start c → (∀ t, changes (c.tasks t) = false) →
      Consistent c.shared := by
  intro h
  obtain ⟨c, hrun, hc⟩ := Option.map_eq_some_iff.mp
    (show (program.runBelow .free 10 start unloadedMeanwhile).map (fun c =>
      (c.shared.currentContext, c.shared.statePool .finalPath,
        (List.range 10).all fun t => !changes (c.tasks t))) =
          some (none, some ⟨0, "base"⟩, true) from rfl)
  obtain ⟨hnone, hc⟩ := Prod.mk.inj hc
  obtain ⟨hpool, hidle⟩ := Prod.mk.inj hc
  have hreach : Tasks.Reaches program .free start c := .of_runBelow_free (fun _ _ => rfl) hrun
  have hdone := Tasks.Program.idle_of_runBelow hrun (fun _ _ => rfl) hidle
  have hcurrent := (h c hreach hdone).pooled .finalPath _ hpool
  rw [hnone] at hcurrent
  cases hcurrent

end EngineContexts

end MeetilyLocal
