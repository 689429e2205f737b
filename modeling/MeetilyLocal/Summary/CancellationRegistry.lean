import MeetilyLocal.Library.Tasks
import MeetilyLocal.Summary.MeetingSummary

/-!
# Cancelling summaries

The embedding of `summary/service.rs`: runs of `process_transcript_background` and calls of
`cancel_summary`, as tasks that are interleaved between the sections of the registry's lock and
between the calls of a generation. A generation is replayed from what it has learned so far, so that
it can wait for the next answer at every call.

The registry has one slot for a meeting. A second run of the meeting takes it, and no call of
`cancel_summary` reaches the first one any more; and a run is recorded as cancelled by the text of
its error, whoever wrote it. While no run is cancelled that has lost its slot, and no answer speaks
of a cancellation that was not asked for (`careful`), cancellations hit their runs
(`hits_of_reaches`).
-/

namespace MeetilyLocal

namespace SummaryService

open SummaryProcessor

/-! ## Generations that wait -/

/-- What a generation learns from its calls. -/
inductive Seen : Type where
  /-- whether its token is cancelled -/
  | token : Bool → Seen
  /-- what the model answers -/
  | reply : Except (List Char) (List Char) → Seen
  /-- what `get_template` of an id returns -/
  | template : List Char → Except (List Char) (List Char × List Char) → Seen

namespace Seen

/-- The state of the token. -/
def token? : Seen → Option Bool
  | token b => some b
  | reply _ | template _ _ => none

/-- The answer of the model. -/
def reply? : Seen → Option (Except (List Char) (List Char))
  | reply result => some result
  | token _ | template _ _ => none

/-- The template with an id. -/
def template? (templateId : List Char) : Seen → Option (Except (List Char) (List Char × List Char))
  | template id result => if id = templateId then some result else none
  | token _ | reply _ => none

/-- It says that the token is cancelled, or is an error that speaks of a cancellation. -/
def speaks : Seen → Bool
  | token b => b
  | reply (.error e) => mentionsCancelled e
  | template templateId (.error e) => mentionsCancelled (templateError templateId e)
  | reply (.ok _) | template _ (.ok _) => false

end Seen

/-- What a generation waits for. -/
inductive Ask : Type where
  | token : Ask
  | reply : Ask
  | template : List Char → Ask

/-- A generation that is replayed. -/
structure Replay : Type where
  /-- how much of what was seen it has used -/
  used : ℕ
  /-- what it waits for, if that was not enough -/
  waits : Option Ask

/-- The next thing that was seen. A generation that waits goes on with any answers, without using
more of what was seen. -/
def Replay.next {α : Type} (seen : List Seen) (ask : Ask) (read : Seen → Option α) (fallback : α)
    (w : Replay) : α × Replay :=
  if w.waits.isSome then (fallback, w)
  else
    match seen[w.used]?.bind read with
    | some answer => (answer, ⟨w.used + 1, none⟩)
    | none => (fallback, ⟨w.used, some ask⟩)

/-- The calls of a generation that is replayed. -/
def replay (withoutThinking : List Char → List Char) (seen : List Seen) : Generator Replay where
  isCancelled := Replay.next seen .token Seen.token? false
  generate _ _ := Replay.next seen .reply Seen.reply? (.error [])
  getTemplate templateId :=
    Replay.next seen (.template templateId) (Seen.template? templateId) (.error [])
  withoutThinking := withoutThinking

/-! ## The program -/

/-- The arguments of `process_transcript_background`. -/
structure Job : Type where
  /-- the meeting -/
  meetingId : String
  /-- the transcript -/
  text : List Char
  /-- what the user asks for -/
  customPrompt : List Char
  /-- the id of the template -/
  templateId : List Char

/-- A run that has its token. Tokens are numbered. -/
structure Run : Type extends Job where
  /-- its cancellation token -/
  token : ℕ

/-- `registration_id`. The counter is an `AtomicU64`, which wraps around. -/
def registrationId (token : ℕ) : ℕ := token % 2 ^ 64

/-- What the tasks share. -/
structure Shared : Type where
  /-- `CANCELLATION_REGISTRY`: the registration id and the token, by meeting -/
  registry : String → Option (ℕ × ℕ)
  /-- the number of tokens, whose low bits are the `REGISTRATION_COUNTER` -/
  tokens : ℕ
  /-- the tokens that are cancelled -/
  cancelled : ℕ → Bool
  /-- for the record: the token that was registered last, by meeting -/
  lastRegistered : String → Option ℕ

namespace Shared

/-- The first part of `register_cancellation_token`: there is one token more. -/
def newToken (s : Shared) : Shared := { s with tokens := s.tokens + 1 }

/-- The second part of `register_cancellation_token`. -/
def insert (s : Shared) (r : Run) : Shared :=
  { s with
    registry := Function.update s.registry r.meetingId (some (registrationId r.token, r.token))
    lastRegistered := Function.update s.lastRegistered r.meetingId (some r.token) }

/-- `cancel_summary` -/
def cancelSummary (s : Shared) (meetingId : String) : Bool × Shared :=
  match s.registry meetingId with
  | some (_, token) => (true, { s with cancelled := Function.update s.cancelled token true })
  | none => (false, s)

/-- `cleanup_cancellation_token`, only if the registered token still belongs to the run -/
def cleanup (s : Shared) (r : Run) : Shared :=
  if (s.registry r.meetingId).any (·.1 == registrationId r.token) then
    { s with registry := Function.update s.registry r.meetingId none }
  else s

end Shared

/-- Where a task is. -/
inductive SummaryTask : Type where
  /-- it does not exist -/
  | free : SummaryTask
  /-- a run, before it has a token -/
  | starts : Job → SummaryTask
  /-- before the token is in the registry -/
  | registers : Run → SummaryTask
  /-- `LlmConfig::resolve` -/
  | resolves : Run → SummaryTask
  /-- `token_threshold` -/
  | measures : Run → SummaryTask
  /-- `generate_meeting_summary`, with a token threshold and what it has seen -/
  | generates : Run → ℕ → List Seen → SummaryTask
  /-- the generation has returned, and whether its token was cancelled then -/
  | cleansUp : Run → Except (List Char) MeetingSummary → Bool → SummaryTask
  /-- before the result is recorded -/
  | records : Run → Except (List Char) MeetingSummary → Bool → SummaryTask
  /-- the resolution has failed, and this is to be recorded -/
  | fails : Run → String → SummaryTask
  /-- the failure is recorded -/
  | cleansUpFailed : Run → String → SummaryTask
  /-- a run has ended: what it recorded, and whether its token was cancelled when its generation
  ended -/
  | finished : Run → SummaryCall → Bool → SummaryTask
  /-- a call of `cancel_summary` -/
  | cancels : String → SummaryTask
  /-- it has returned -/
  | answered : Bool → SummaryTask

/-- What comes from outside at a step. -/
inductive SummaryEnv : Type where
  /-- nothing -/
  | goes : SummaryEnv
  /-- the resolution fails -/
  | unresolved : String → SummaryEnv
  /-- the token threshold -/
  | threshold : ℕ → SummaryEnv
  /-- the model answers -/
  | reply : Except (List Char) (List Char) → SummaryEnv
  /-- the template is loaded -/
  | template : Except (List Char) (List Char × List Char) → SummaryEnv
  /-- the seconds it took -/
  | duration : Float → SummaryEnv

/-- The calls from outside. -/
inductive ServiceCall : Type where
  /-- `process_transcript_background` -/
  | summarize : Job → ServiceCall
  /-- `cancel_summary` -/
  | cancelSummary : String → ServiceCall

/-- What the runs call. -/
structure Service : Type where
  /-- `THINKING_TAG_REGEX.replace_all(markdown, "")` -/
  withoutThinking : List Char → List Char
  /-- what is stored of a summary some of whose chunks failed -/
  json : SummaryOutput → ℕ → Option String

/-- How a call from outside begins. -/
def begins : ServiceCall → Shared → Option (Shared × SummaryTask)
  | .summarize job, s => some (s, .starts job)
  | .cancelSummary meetingId, s => some (s, .cancels meetingId)

namespace Service

variable (v : Service)

/-- A generation, as far as it goes with what was seen. -/
def generation (r : Run) (tokenThreshold : ℕ) (seen : List Seen) :
    Except (List Char) MeetingSummary × Replay :=
  generateMeetingSummary (replay v.withoutThinking seen) r.text r.customPrompt r.templateId
    tokenThreshold ⟨0, none⟩

/-- What a generation learns next, if it waits for something that is there. -/
def learns (env : SummaryEnv) (s : Shared) (r : Run) (tokenThreshold : ℕ) (seen : List Seen) :
    Option Seen :=
  match (v.generation r tokenThreshold seen).2.waits, env with
  | some .token, _ => some (.token (s.cancelled r.token))
  | some .reply, .reply result => some (.reply result)
  | some (.template templateId), .template result => some (.template templateId result)
  | _, _ => none

/-- What a run records of the result of its generation. -/
def recorded (duration : Float) (result : Except (List Char) MeetingSummary) : SummaryCall :=
  match result with
  | .ok summary =>
    processTranscriptBackground (fun output => v.json output summary.failedChunks) duration
      (.ok summary.toSummaryOutput)
  | .error e => processTranscriptBackground (fun _ => none) duration (.error (String.ofList e))

/-- One step of a run or of a call. -/
def step (env : SummaryEnv) (s : Shared) :
    SummaryTask → Option (Tasks.Move Shared SummaryTask)
  | .starts job => some ⟨s.newToken, .registers ⟨job, s.tokens⟩, none⟩
  | .registers r => some ⟨s.insert r, .resolves r, none⟩
  | .resolves r =>
    match env with
    | .unresolved e => some ⟨s, .fails r e, none⟩
    | _ => some ⟨s, .measures r, none⟩
  | .measures r =>
    match env with
    | .threshold tokenThreshold => some ⟨s, .generates r tokenThreshold [], none⟩
    | _ => none
  | .generates r tokenThreshold seen =>
    match (v.generation r tokenThreshold seen).2.waits with
    | none =>
      let result := (v.generation r tokenThreshold seen).1
      some ⟨s, .cleansUp r result (s.cancelled r.token), none⟩
    | some _ =>
      (v.learns env s r tokenThreshold seen).map fun next =>
        ⟨s, .generates r tokenThreshold (seen ++ [next]), none⟩
  | .cleansUp r result inTime => some ⟨s.cleanup r, .records r result inTime, none⟩
  | .records r result inTime =>
    match env with
    | .duration seconds => some ⟨s, .finished r (v.recorded seconds result) inTime, none⟩
    | _ => none
  | .fails r e => some ⟨s, .cleansUpFailed r e, none⟩
  | .cleansUpFailed r e =>
    some ⟨s.cleanup r, .finished r (.failed e) (s.cancelled r.token), none⟩
  | .cancels meetingId =>
    some ⟨(s.cancelSummary meetingId).2, .answered (s.cancelSummary meetingId).1, none⟩
  | .free | .finished _ _ _ | .answered _ => none

/-- The program that runs and calls are. -/
def program : Tasks.Program Shared SummaryTask SummaryEnv ServiceCall where
  isFree task := match task with | .free => true | _ => false
  begins := begins
  step := v.step

end Service

/-- Nothing has been called. -/
def initial : Tasks.Config Shared SummaryTask :=
  ⟨⟨fun _ => none, 0, fun _ => false, fun _ => none⟩, fun _ => .free⟩

namespace SummaryTask

/-- The run that has a token. -/
def run : SummaryTask → Option Run
  | registers r | resolves r | measures r | generates r _ _ => some r
  | cleansUp r _ _ | records r _ _ | fails r _ | cleansUpFailed r _ | finished r _ _ => some r
  | free | starts _ | cancels _ | answered _ => none

/-- The run whose token was registered and has not been cleaned up. -/
def registered : SummaryTask → Option Run
  | resolves r | measures r | generates r _ _ | cleansUp r _ _ => some r
  | fails r _ | cleansUpFailed r _ => some r
  | _ => none

/-- The run between its registration and the end of its generation. -/
def active : SummaryTask → Option Run
  | resolves r | measures r | generates r _ _ => some r
  | _ => none

/-- The run that cleans up next. -/
def cleans : SummaryTask → Option Run
  | cleansUp r _ _ | cleansUpFailed r _ => some r
  | _ => none

theorem registered_of_active {a : SummaryTask} {r : Run} (h : a.active = some r) :
    a.registered = some r := by
  cases a <;> first | exact h | cases h

theorem run_of_registered {a : SummaryTask} {r : Run} (h : a.registered = some r) :
    a.run = some r := by
  cases a <;> first | exact h | cases h

theorem run_of_cleans {a : SummaryTask} {r : Run} (h : a.cleans = some r) : a.run = some r := by
  cases a <;> first | exact h | cases h

end SummaryTask

variable {v : Service}

/-- **Cancellations hit their runs.** -/
structure Hits (v : Service) (d : Tasks.Discipline Shared SummaryTask SummaryEnv ServiceCall)
    (c : Tasks.Config Shared SummaryTask) : Prop where
  /-- `cancel_summary` cancels every run of the meeting whose generation has not ended -/
  hits {c' : Tasks.Config Shared SummaryTask} {t child : ℕ} {env : SummaryEnv}
    {meetingId : String} : c.tasks t = .cancels meetingId → d.Allows c (.run t env child) →
    v.program.next c (.run t env child) = some c' →
    ∀ u, ∀ r ∈ (c.tasks u).active, r.meetingId = meetingId → c'.shared.cancelled r.token = true
  /-- a cleanup leaves the token of any other run in the registry -/
  keeps {c' : Tasks.Config Shared SummaryTask} {t u child : ℕ} {env : SummaryEnv} {r r' : Run} :
    t ≠ u → (c.tasks t).cleans = some r → d.Allows c (.run t env child) →
    v.program.next c (.run t env child) = some c' → (c.tasks u).registered = some r' →
    c.shared.registry r'.meetingId = some (registrationId r'.token, r'.token) →
    c'.shared.registry r'.meetingId = some (registrationId r'.token, r'.token)
  /-- a run is recorded as cancelled only if its token was cancelled when its generation ended -/
  inTime {t : ℕ} {r : Run} {inTime : Bool} :
    c.tasks t = .finished r .cancelled inTime → inTime = true

/-- No run is cancelled that has lost its slot to a later one, unless its token is cancelled
already. No answer speaks of a cancellation while the token is not cancelled, and the counter does
not wrap around. -/
def careful (v : Service) : Tasks.Discipline Shared SummaryTask SummaryEnv ServiceCall where
  call _ _ := True
  callBeside _ _ := True
  step env s a :=
    match a with
    | .starts _ => s.tokens < 2 ^ 64
    | .generates r tokenThreshold seen => ∀ next ∈ v.learns env s r tokenThreshold seen,
        next.speaks = true → s.cancelled r.token = true
    | _ => True
  stepBeside _ s a b :=
    match a with
    | .cancels meetingId => ∀ r ∈ b.active, r.meetingId = meetingId →
        s.cancelled r.token = true ∨ s.lastRegistered meetingId = some r.token
    | _ => True

/-! ## Errors of a generation -/

theorem of_next {α : Type} {seen : List Seen} {ask : Ask} {read : Seen → Option α} {fallback a : α}
    {w w' : Replay} (h : w.next seen ask read fallback = (a, w')) (hwaits : w'.waits = none) :
    w.waits = none ∧ ∃ o ∈ seen, read o = some a := by
  rw [Replay.next] at h
  split at h
  · next hwaiting =>
    obtain ⟨rfl, rfl⟩ := Prod.mk.inj h
    simp [hwaits] at hwaiting
  · next hready =>
    split at h
    · next answer hanswer =>
      obtain ⟨rfl, rfl⟩ := Prod.mk.inj h
      obtain ⟨o, ho, hread⟩ := Option.bind_eq_some_iff.mp hanswer
      exact ⟨by simpa using hready, o, List.mem_of_getElem? ho, hread⟩
    · obtain ⟨rfl, rfl⟩ := Prod.mk.inj h
      cases hwaits

/-- A generation that has seen nothing of a cancellation and does not wait. -/
theorem harmless_replay {withoutThinking : List Char → List Char} {seen : List Seen}
    (hseen : ∀ o ∈ seen, o.speaks = false) :
    Harmless (replay withoutThinking seen) fun w => w.waits = none where
  isCancelled h hwaits := by
    obtain ⟨hbefore, o, ho, hread⟩ := of_next h hwaits
    cases o with
    | token b =>
      obtain rfl := Option.some.inj hread
      exact ⟨hseen _ ho, hbefore⟩
    | reply result => cases hread
    | template id result => cases hread
  generate system user w w' result h hwaits := by
    obtain ⟨hbefore, o, ho, hread⟩ := of_next h hwaits
    refine ⟨hbefore, ?_⟩
    rintro e rfl
    cases o with
    | token b => cases hread
    | reply result =>
      obtain rfl := Option.some.inj hread
      exact hseen _ ho
    | template id result => cases hread
  getTemplate templateId w w' result h hwaits := by
    obtain ⟨hbefore, o, ho, hread⟩ := of_next h hwaits
    refine ⟨hbefore, ?_⟩
    rintro e rfl
    cases o with
    | token b => cases hread
    | reply result => cases hread
    | template id result =>
      rw [Seen.template?] at hread
      split at hread
      · next hid =>
        subst hid
        obtain rfl := Option.some.inj hread
        exact hseen _ ho
      · cases hread

/-- A generation whose error speaks of a cancellation has seen one. -/
theorem speaks_of_generation {r : Run} {tokenThreshold : ℕ} {seen : List Seen} {e : List Char}
    (hwaits : (v.generation r tokenThreshold seen).2.waits = none)
    (herror : (v.generation r tokenThreshold seen).1 = .error e)
    (he : mentionsCancelled e = true) : ∃ o ∈ seen, o.speaks = true := by
  by_contra hno
  have hseen : ∀ o ∈ seen, o.speaks = false := by
    intro o ho
    simpa using fun hspeaks => hno ⟨o, ho, hspeaks⟩
  have hharmless : Harmless (replay v.withoutThinking seen) fun w => w.waits = none :=
    harmless_replay hseen
  obtain ⟨-, hsilent⟩ := sound_generateMeetingSummary hharmless r.text r.customPrompt r.templateId
    tokenThreshold rfl hwaits
  exact absurd he (by simp [hsilent e herror])

/-- What is recorded as cancelled is an error that speaks of it. -/
theorem of_recorded {seconds : Float} {result : Except (List Char) MeetingSummary}
    (h : v.recorded seconds result = .cancelled) :
    ∃ e, result = .error e ∧ mentionsCancelled e = true := by
  cases result with
  | ok summary =>
    simp only [Service.recorded, processTranscriptBackground] at h
    split at h <;> cases h
  | error e =>
    simp only [Service.recorded, processTranscriptBackground] at h
    split at h
    · next hcontains => exact ⟨e, rfl, mentionsCancelled_iff.mpr hcontains⟩
    · cases h

/-! ## What a step does -/

/-- The ways in which a step changes the registry and the tokens. -/
inductive Moves (s : Shared) (a : SummaryTask) : Tasks.Move Shared SummaryTask → Prop where
  /-- nothing changes -/
  | stays {task : SummaryTask} : task.run = a.run → task.registered = a.registered →
      Moves s a ⟨s, task, none⟩
  /-- a run gets its token -/
  | starts {job : Job} : a = .starts job → Moves s a ⟨s.newToken, .registers ⟨job, s.tokens⟩, none⟩
  /-- it is registered -/
  | registers {r : Run} : a = .registers r → Moves s a ⟨s.insert r, .resolves r, none⟩
  /-- a run cleans up -/
  | cleansUp {r : Run} {task : SummaryTask} : a.cleans = some r → task.run = some r →
      task.registered = none → Moves s a ⟨s.cleanup r, task, none⟩
  /-- a cancellation -/
  | cancels {meetingId : String} {found : Bool} : a = .cancels meetingId →
      Moves s a ⟨(s.cancelSummary meetingId).2, .answered found, none⟩

variable {env : SummaryEnv} {s : Shared} {a b : SummaryTask} {r r' : Run}
  {move : Tasks.Move Shared SummaryTask} {meetingId : String}

/-- What one step does to the registry and the tokens. -/
theorem step_moves (h : v.step env s a = some move) : Moves s a move := by
  cases a with
  | free => cases h
  | finished => cases h
  | answered => cases h
  | starts job =>
    cases h
    exact .starts rfl
  | registers r =>
    cases h
    exact .registers rfl
  | resolves r =>
    cases env <;> cases h <;> exact .stays rfl rfl
  | measures r =>
    cases env <;> cases h
    exact .stays rfl rfl
  | generates r tokenThreshold seen =>
    rw [Service.step] at h
    split at h
    · cases h
      exact .stays rfl rfl
    · obtain ⟨next, -, rfl⟩ := Option.map_eq_some_iff.mp h
      exact .stays rfl rfl
  | cleansUp r result inTime =>
    cases h
    exact .cleansUp rfl rfl rfl
  | records r result inTime =>
    cases env <;> cases h
    exact .stays rfl rfl
  | fails r e =>
    cases h
    exact .stays rfl rfl
  | cleansUpFailed r e =>
    cases h
    exact .cleansUp rfl rfl rfl
  | cancels meetingId =>
    cases h
    exact .cancels rfl

/-! ### The tokens -/

theorem cancelled_cancelSummary {token : ℕ} (h : s.cancelled token = true) :
    (s.cancelSummary meetingId).2.cancelled token = true := by
  rw [Shared.cancelSummary]
  split
  · next id other hslot =>
    rcases eq_or_ne token other with rfl | hne
    · exact Function.update_self _ _ _
    · exact (Function.update_of_ne hne _ _).trans h
  · exact h

@[simp]
theorem registry_cancelSummary : (s.cancelSummary meetingId).2.registry = s.registry := by
  rw [Shared.cancelSummary]
  split <;> rfl

@[simp]
theorem lastRegistered_cancelSummary :
    (s.cancelSummary meetingId).2.lastRegistered = s.lastRegistered := by
  rw [Shared.cancelSummary]
  split <;> rfl

@[simp]
theorem tokens_cancelSummary : (s.cancelSummary meetingId).2.tokens = s.tokens := by
  rw [Shared.cancelSummary]
  split <;> rfl

@[simp]
theorem cancelled_cleanup : (s.cleanup r).cancelled = s.cancelled := by
  rw [Shared.cleanup]
  split <;> rfl

@[simp]
theorem lastRegistered_cleanup : (s.cleanup r).lastRegistered = s.lastRegistered := by
  rw [Shared.cleanup]
  split <;> rfl

@[simp]
theorem tokens_cleanup : (s.cleanup r).tokens = s.tokens := by
  rw [Shared.cleanup]
  split <;> rfl

/-- A token that is cancelled stays so. -/
theorem Moves.cancelled {token : ℕ} (h : Moves s a move) (htoken : s.cancelled token = true) :
    move.shared.cancelled token = true := by
  cases h with
  | stays => exact htoken
  | starts => exact htoken
  | registers => exact htoken
  | cleansUp => simpa using htoken
  | cancels => exact cancelled_cancelSummary htoken

/-! ## The invariant -/

/-- What a task knows of a cancellation is true. -/
def Honest (s : Shared) : SummaryTask → Prop
  | .generates r _ seen => ∀ o ∈ seen, o.speaks = true → s.cancelled r.token = true
  | .cleansUp _ result inTime | .records _ result inTime =>
    ∀ e, result = .error e → mentionsCancelled e = true → inTime = true
  | .finished _ call inTime => call = .cancelled → inTime = true
  | _ => True

/-- What holds where a task is. -/
structure Owned (s : Shared) (a : SummaryTask) : Prop where
  /-- its token is one of those there are -/
  numbered : ∀ r ∈ a.run, r.token < s.tokens
  /-- the run that was registered last has the slot until it cleans up -/
  slot : ∀ r ∈ a.registered, s.lastRegistered r.meetingId = some r.token →
    s.registry r.meetingId = some (registrationId r.token, r.token)
  /-- what it knows is true -/
  honest : Honest s a

/-- Two runs have different tokens. -/
def Apart (a b : SummaryTask) : Prop := ∀ r ∈ a.run, ∀ r' ∈ b.run, r.token ≠ r'.token

/-- The assertions about the runs. -/
def guarded : Tasks.Assertions Shared SummaryTask := ⟨fun s => s.tokens ≤ 2 ^ 64, Owned, Apart⟩

theorem Apart.symm (h : Apart a b) : Apart b a :=
  fun r hr r' hr' heq => h r' hr' r hr heq.symm

theorem apart_of_none (h : a.run = none) : Apart a b := by
  intro r hr
  rw [h] at hr
  cases hr

theorem owned_of_none (h : a.run = none) (hhonest : Honest s a) : Owned s a := by
  have hno : ∀ r, a.run ≠ some r := by simp [h]
  exact ⟨fun r hr => absurd hr (hno r),
    fun r hr => absurd (SummaryTask.run_of_registered hr) (hno r), hhonest⟩

/-- Registration ids of tokens below the wrap are different. -/
theorem registrationId_ne {token token' : ℕ} (h : token < 2 ^ 64) (h' : token' < 2 ^ 64)
    (hne : token ≠ token') : registrationId token ≠ registrationId token' := by
  rwa [registrationId, registrationId, Nat.mod_eq_of_lt h, Nat.mod_eq_of_lt h']

/-- A cleanup leaves a slot alone that belongs to another run. -/
theorem registry_cleanup
    (hslot : s.registry r'.meetingId = some (registrationId r'.token, r'.token))
    (hne : registrationId r.token ≠ registrationId r'.token) :
    (s.cleanup r).registry r'.meetingId = some (registrationId r'.token, r'.token) := by
  rw [Shared.cleanup]
  split
  · next hmine =>
    rcases eq_or_ne r'.meetingId r.meetingId with hsame | hother
    · rw [hsame] at hslot
      simp [hslot, hne.symm] at hmine
    · exact (Function.update_of_ne hother _ _).trans hslot
  · exact hslot

/-- What a step of another task keeps. -/
theorem Moves.owned (h : Moves s a move) (hfew : s.tokens ≤ 2 ^ 64) (ha : Owned s a)
    (hb : Owned s b) (hapart : Apart a b) : Owned move.shared b := by
  have hhonest : Honest move.shared b := by
    have hb := hb.honest
    cases b with
    | generates r tokenThreshold seen => exact fun o ho hspeaks => h.cancelled (hb o ho hspeaks)
    | _ => exact hb
  cases h with
  | stays => exact hb
  | starts =>
    exact ⟨fun r hr => Nat.lt_succ_of_lt (hb.numbered r hr), hb.slot, hhonest⟩
  | registers ha' =>
    next r =>
    subst ha'
    refine ⟨hb.numbered, fun r' hr' hlast => ?_, hhonest⟩
    have hne := hapart r rfl r' (SummaryTask.run_of_registered hr')
    rcases eq_or_ne r'.meetingId r.meetingId with hsame | hother
    · -- its token is not the last one any more
      rw [Shared.insert, hsame] at hlast
      simp [hne] at hlast
    · rw [Shared.insert] at hlast ⊢
      simp only [Function.update_of_ne hother] at hlast ⊢
      exact hb.slot r' hr' hlast
  | cleansUp hcleans =>
    next r task htask _ =>
    have hr := SummaryTask.run_of_cleans hcleans
    refine ⟨fun r' hr' => by simpa using hb.numbered r' hr', fun r' hr' hlast => ?_, hhonest⟩
    have hrun := SummaryTask.run_of_registered hr'
    refine registry_cleanup (hb.slot r' hr' (by simpa using hlast)) ?_
    exact registrationId_ne ((ha.numbered r hr).trans_le hfew)
      ((hb.numbered r' hrun).trans_le hfew) (hapart r hr r' hrun)
  | cancels =>
    next meetingId found _ =>
    refine ⟨fun r hr => by simpa using hb.numbered r hr, fun r hr hlast => ?_, hhonest⟩
    simpa using hb.slot r hr (by simpa using hlast)

/-- What a step keeps for its task, but for what the task knows. -/
theorem Moves.self (h : Moves s a move) (ha : Owned s a) (hhonest : Honest move.shared move.task) :
    Owned move.shared move.task := by
  cases h with
  | stays hrun hregistered =>
    exact ⟨fun r hr => ha.numbered r (hrun ▸ hr), fun r hr => ha.slot r (hregistered ▸ hr),
      hhonest⟩
  | starts =>
    refine ⟨?_, by simp [SummaryTask.registered], hhonest⟩
    rintro _ ⟨⟩
    exact Nat.lt_succ_self _
  | registers ha' =>
    subst ha'
    refine ⟨fun r hr => ha.numbered r hr, ?_, hhonest⟩
    rintro r ⟨⟩ -
    exact Function.update_self _ _ _
  | cleansUp hcleans htask hregistered =>
    refine ⟨fun r hr => ?_, by simp [hregistered], hhonest⟩
    obtain rfl := Option.some.inj (htask.symm.trans hr)
    simpa using ha.numbered _ (SummaryTask.run_of_cleans hcleans)
  | cancels => exact owned_of_none rfl trivial

/-- What a run learns is true. -/
theorem honest_step (hallowed : (careful v).step env s a) (ha : Honest s a)
    (h : v.step env s a = some move) : Honest move.shared move.task := by
  cases a with
  | free => cases h
  | finished => cases h
  | answered => cases h
  | starts | registers | fails | cancels =>
    cases h
    trivial
  | resolves r => cases env <;> cases h <;> trivial
  | measures r =>
    cases env <;> cases h
    simp [Honest]
  | generates r tokenThreshold seen =>
    rw [Service.step] at h
    split at h
    · next hwaits =>
      cases h
      intro e herror he
      obtain ⟨o, ho, hspeaks⟩ := speaks_of_generation hwaits herror he
      exact ha o ho hspeaks
    · obtain ⟨next, hnext, rfl⟩ := Option.map_eq_some_iff.mp h
      refine List.forall_mem_append.mpr ⟨ha, List.forall_mem_singleton.mpr ?_⟩
      exact hallowed next hnext
  | cleansUp r result inTime =>
    cases h
    exact ha
  | records r result inTime =>
    cases env <;> cases h
    intro hcancelled
    obtain ⟨e, herror, he⟩ := of_recorded hcancelled
    exact ha e herror he
  | cleansUpFailed r e =>
    cases h
    rintro ⟨⟩

theorem Moves.spawned (h : Moves s a move) : move.spawned = none := by
  cases h <;> rfl

theorem Moves.apart (h : Moves s a move) (hb : Owned s b) (hapart : Apart a b) :
    Apart move.task b := by
  cases h with
  | stays hrun => exact fun r hr => hapart r (hrun ▸ hr)
  | starts =>
    -- the token is a new one
    rintro r ⟨⟩ r' hr' heq
    exact absurd (hb.numbered r' hr') (by simp [← heq])
  | registers ha =>
    subst ha
    exact hapart
  | cleansUp hcleans htask =>
    intro r hr
    obtain rfl := Option.some.inj (htask.symm.trans hr)
    exact hapart _ (SummaryTask.run_of_cleans hcleans)
  | cancels => exact apart_of_none rfl

theorem stable_guarded : Tasks.Assertions.Stable .trivial guarded v.program (careful v) where
  symm := Apart.symm
  call {k s s' a} _ hs hbegins := by
    obtain ⟨-, hs⟩ := hs
    cases k <;> cases hbegins <;> exact ⟨hs, owned_of_none rfl trivial⟩
  callBeside {k s s' a b} _ _ _ hb hbegins := by
    obtain ⟨-, hb⟩ := hb
    cases k <;> cases hbegins <;> exact ⟨hb, apart_of_none rfl⟩
  step {env s a move} htaken := by
    obtain ⟨hallowed, ⟨-, hfew⟩, ⟨-, ha⟩, heq⟩ := htaken
    have hmoves := step_moves heq
    refine ⟨?_, hmoves.self ha (honest_step hallowed ha.honest heq)⟩
    cases hmoves with
    | stays => exact hfew
    | starts ha' =>
      subst ha'
      exact Nat.succ_le_of_lt hallowed
    | registers => exact hfew
    | cleansUp => simpa [guarded] using hfew
    | cancels => simpa [guarded] using hfew
  beside hbeside := by
    have hmoves := step_moves hbeside.eq
    exact ⟨hmoves.owned hbeside.shared.2 hbeside.own.2 hbeside.ownOther.2 hbeside.pair.2,
      hmoves.apart hbeside.ownOther.2 hbeside.pair.2⟩
  spawn htaken hspawned := by
    rw [(step_moves htaken.eq).spawned] at hspawned
    cases hspawned
  spawnBeside hbeside hspawned := by
    rw [(step_moves hbeside.eq).spawned] at hspawned
    cases hspawned

theorem shared_of_next {c c' : Tasks.Config Shared SummaryTask} {t child : ℕ}
    (h : v.program.next c (.run t env child) = some c') :
    ∃ move, v.step env c.shared (c.tasks t) = some move ∧ c'.shared = move.shared := by
  obtain ⟨move, hstep, hafter⟩ := Option.bind_eq_some_iff.mp h
  exact ⟨move, hstep, (Tasks.Program.afterMove_cases hafter).1⟩

theorem shared_of_cleans (ha : a.cleans = some r) (h : v.step env s a = some move) :
    move.shared = s.cleanup r := by
  cases a with
  | cleansUp | cleansUpFailed =>
    cases ha
    cases h
    rfl
  | _ => cases ha

/-- A cancellation cancels the token in the slot. -/
theorem cancelled_of_registry {id token : ℕ} (h : s.registry meetingId = some (id, token)) :
    (s.cancelSummary meetingId).2.cancelled token = true := by
  rw [Shared.cancelSummary, h]
  exact Function.update_self _ _ _

/-- It cancels no other. -/
theorem cancelled_of_cancelSummary {token : ℕ}
    (h : (s.cancelSummary meetingId).2.cancelled token = true)
    (hbefore : s.cancelled token = false) : ∃ id, s.registry meetingId = some (id, token) := by
  rw [Shared.cancelSummary] at h
  split at h
  · next id other hslot =>
    rcases eq_or_ne token other with rfl | hne
    · exact ⟨id, hslot⟩
    · simp [Function.update_of_ne hne, hbefore] at h
  · simp [hbefore] at h

/-- **Cancellations hit their runs.** In every interleaving of runs and cancellations, also of
several runs of one meeting: while no run is cancelled that has lost its slot to a later one and no
answer speaks of a cancellation that was not asked for, a cancellation cancels every run of its
meeting that generates, a cleanup leaves the tokens of other runs alone, and what is recorded as
cancelled was cancelled in time. -/
theorem hits_of_reaches {c : Tasks.Config Shared SummaryTask}
    (h : Tasks.Reaches v.program (careful v) initial c) : Hits v (careful v) c := by
  have hguarded : guarded.Hold c := by
    refine stable_guarded.of_reaches (fun _ _ => Tasks.Assertions.hold_trivial) ?_ h
    exact ⟨Nat.zero_le _, fun _ => owned_of_none rfl trivial, fun _ _ _ => apart_of_none rfl⟩
  refine ⟨?_, ?_, ?_⟩
  · intro c' t child env meetingId ht hallow hnext u r hr hmeeting
    obtain ⟨move, hstep, hshared⟩ := shared_of_next hnext
    obtain ⟨-, hbeside⟩ := hallow
    have hut : u ≠ t := by
      rintro rfl
      rw [ht] at hr
      cases hr
    have hslot := hbeside u hut
    rw [ht] at hstep hslot
    cases hstep
    rw [hshared]
    rcases hslot r hr hmeeting with hcancelled | hlast
    · exact cancelled_cancelSummary hcancelled
    · have hregistered := SummaryTask.registered_of_active hr
      subst hmeeting
      exact cancelled_of_registry ((hguarded.own u).slot r hregistered hlast)
  · intro c' t u child env r r' htu hcleans hallow hnext hr' hslot
    obtain ⟨move, hstep, hshared⟩ := shared_of_next hnext
    have hrun := SummaryTask.run_of_cleans hcleans
    have hrun' := SummaryTask.run_of_registered hr'
    have hne := registrationId_ne (((hguarded.own t).numbered r hrun).trans_le hguarded.shared)
      (((hguarded.own u).numbered r' hrun').trans_le hguarded.shared)
      (hguarded.pair t u htu r hrun r' hrun')
    rw [hshared, shared_of_cleans hcleans hstep]
    exact registry_cleanup hslot hne
  · intro t r inTime ht
    have hhonest := (hguarded.own t).honest
    rw [ht] at hhonest
    exact hhonest rfl

/-! ## Runs that are missed -/

/-- The slot of a meeting is that of the run that was registered last, if it is taken. -/
def latest : Tasks.Assertions Shared SummaryTask where
  shared s := ∀ meetingId id token, s.registry meetingId = some (id, token) →
    s.lastRegistered meetingId = some token
  own _ _ := True
  pair _ _ := True

theorem latest_of_moves (h : Moves s a move) (hs : latest.shared s) :
    latest.shared move.shared := by
  intro meetingId id token hslot
  cases h with
  | stays => exact hs meetingId id token hslot
  | starts => exact hs meetingId id token hslot
  | registers =>
    next r _ =>
    simp only [Shared.insert] at hslot ⊢
    rcases eq_or_ne meetingId r.meetingId with rfl | hne
    · rw [Function.update_self] at hslot
      obtain ⟨-, rfl⟩ := Prod.mk.inj (Option.some.inj hslot)
      exact Function.update_self _ _ _
    · rw [Function.update_of_ne hne] at hslot
      exact (Function.update_of_ne hne _ _).trans (hs meetingId id token hslot)
  | cleansUp =>
    next r task _ _ _ =>
    rw [lastRegistered_cleanup]
    refine hs meetingId id token ?_
    rw [Shared.cleanup] at hslot
    split at hslot
    · rcases eq_or_ne meetingId r.meetingId with rfl | hne
      · simp at hslot
      · exact (Function.update_of_ne hne _ _).symm.trans hslot
    · exact hslot
  | cancels =>
    rw [registry_cancelSummary] at hslot
    rw [lastRegistered_cancelSummary]
    exact hs meetingId id token hslot

theorem stable_latest {d : Tasks.Discipline Shared SummaryTask SummaryEnv ServiceCall} :
    Tasks.Assertions.Stable .trivial latest v.program d where
  symm := id
  call {k s s' a} _ hs hbegins := by
    cases k <;> cases hbegins <;> exact ⟨hs.2, trivial⟩
  callBeside _ _ _ _ _ := ⟨trivial, trivial⟩
  step htaken := ⟨latest_of_moves (step_moves htaken.eq) htaken.shared.2, trivial⟩
  beside _ := ⟨trivial, trivial⟩
  spawn _ _ := ⟨trivial, trivial⟩
  spawnBeside _ _ := trivial

/-- A run that has lost its slot to a later one is missed by every cancellation, in every run. -/
theorem missed_of_reaches {d : Tasks.Discipline Shared SummaryTask SummaryEnv ServiceCall}
    {c c' : Tasks.Config Shared SummaryTask} {t child token : ℕ}
    (h : Tasks.Reaches v.program d initial c) (ht : c.tasks t = .cancels meetingId)
    (hnext : v.program.next c (.run t env child) = some c')
    (hlost : c.shared.lastRegistered meetingId ≠ some token)
    (hbefore : c.shared.cancelled token = false) : c'.shared.cancelled token = false := by
  have hlatest : latest.Hold c := by
    refine stable_latest.of_reaches (fun _ _ => Tasks.Assertions.hold_trivial) ?_ h
    exact ⟨by simp [latest, initial], fun _ => trivial, fun _ _ _ => trivial⟩
  obtain ⟨move, hstep, hshared⟩ := shared_of_next hnext
  rw [ht] at hstep
  cases hstep
  rw [hshared]
  by_contra hcancelled
  obtain ⟨id, hslot⟩ := cancelled_of_cancelSummary (by simpa using hcancelled) hbefore
  exact hlost (hlatest.shared meetingId id token hslot)

/-! ## A run that is cancelled, and one that is not -/

instance (k : ServiceCall) (s : Shared) : Decidable ((careful v).call k s) :=
  inferInstanceAs (Decidable True)

instance (k : ServiceCall) (b : SummaryTask) : Decidable ((careful v).callBeside k b) :=
  inferInstanceAs (Decidable True)

instance (env : SummaryEnv) (s : Shared) : ∀ a, Decidable ((careful v).step env s a)
  | .starts _ => inferInstanceAs (Decidable (s.tokens < 2 ^ 64))
  | .generates r tokenThreshold seen =>
    inferInstanceAs (Decidable (∀ next ∈ v.learns env s r tokenThreshold seen,
      next.speaks = true → s.cancelled r.token = true))
  | .free | .registers _ | .resolves _ | .measures _ | .cleansUp _ _ _ | .records _ _ _ =>
    inferInstanceAs (Decidable True)
  | .fails _ _ | .cleansUpFailed _ _ | .finished _ _ _ | .cancels _ | .answered _ =>
    inferInstanceAs (Decidable True)

instance (env : SummaryEnv) (s : Shared) (b : SummaryTask) :
    ∀ a, Decidable ((careful v).stepBeside env s a b)
  | .cancels meetingId =>
    inferInstanceAs (Decidable (∀ r ∈ b.active, r.meetingId = meetingId →
      s.cancelled r.token = true ∨ s.lastRegistered meetingId = some r.token))
  | .free | .starts _ | .registers _ | .resolves _ | .measures _ | .generates _ _ _ =>
    inferInstanceAs (Decidable True)
  | .cleansUp _ _ _ | .records _ _ _ | .fails _ _ | .cleansUpFailed _ _ | .finished _ _ _ =>
    inferInstanceAs (Decidable True)
  | .answered _ => inferInstanceAs (Decidable True)

/-- Nothing is thought, and the Markdown is stored. -/
def plain : Service := ⟨id, fun output _ => some output.markdown⟩

/-- A short meeting. -/
def standup : Job := ⟨"meeting-1", "Hello.".toList, [], "daily_standup".toList⟩

/-- A run is cancelled after it has loaded its template. -/
def cancelledRun : List (Tasks.Label SummaryEnv ServiceCall) :=
  [.call 0 (.summarize standup), .run 0 .goes 2, .run 0 .goes 2, .run 0 .goes 2,
    .run 0 (.threshold 4000) 2, .run 0 .goes 2, .run 0 (.template (.ok ([], []))) 2,
    .call 1 (.cancelSummary "meeting-1"), .run 1 .goes 2, .run 0 .goes 2, .run 0 .goes 2,
    .run 0 .goes 2]

/-- Before a result is recorded: whether its error speaks of a cancellation, and the token was
cancelled in time. -/
def cancelledInTime (c : Tasks.Config Shared SummaryTask) : Bool :=
  match c.tasks 0 with
  | .records _ (.error e) inTime => mentionsCancelled e && inTime
  | _ => false

theorem hits_cancelledRun : ∃ c : Tasks.Config Shared SummaryTask,
    plain.program.runBelow (careful plain) 3 initial cancelledRun = some c ∧
      cancelledInTime c = true ∧ Hits plain (careful plain) c := by
  have hcall : ∀ k, (careful plain).callBeside k .free := fun _ => trivial
  have hstep : ∀ env s a, (careful plain).stepBeside env s a .free := by
    intro env s a
    cases a with
    | cancels meetingId =>
      intro r hr
      cases hr
    | _ => trivial
  obtain ⟨c, hrun, hreach, hcheck⟩ := Tasks.Reaches.exists_of_runBelow hcall hstep (fun _ _ => rfl)
    (show (plain.program.runBelow (careful plain) 3 initial cancelledRun).any cancelledInTime = true
      by decide +kernel)
  exact ⟨c, hrun, hcheck, hits_of_reaches hreach⟩

/-- A run of a meeting starts beside another one, and the meeting is cancelled. -/
def secondRun : List (Tasks.Label SummaryEnv ServiceCall) :=
  [.call 0 (.summarize standup), .run 0 .goes 3, .run 0 .goes 3, .run 0 .goes 3,
    .call 1 (.summarize standup), .run 1 .goes 3, .run 1 .goes 3,
    .call 2 (.cancelSummary "meeting-1")]

/-- In general they do not: the first of two runs of a meeting is missed. -/
theorem not_hits_secondRun :
    ¬∀ (v : Service) (c : Tasks.Config Shared SummaryTask),
      Tasks.Reaches v.program .free initial c → Hits v .free c := by
  intro h
  obtain ⟨c, hrun, ht, hr⟩ : ∃ c, plain.program.runAll initial secondRun = some c ∧
      c.tasks 2 = .cancels "meeting-1" ∧ c.tasks 0 = .measures ⟨standup, 0⟩ := ⟨_, rfl, rfl, rfl⟩
  have hreach := Tasks.Reaches.of_runAll .refl hrun
  obtain ⟨c', hnext⟩ : ∃ c', plain.program.next c (.run 2 .goes 3) = some c' := by
    rw [Tasks.Program.next, ht]
    exact ⟨_, rfl⟩
  have hhit := (h plain c hreach).hits ht ⟨trivial, fun _ _ => trivial⟩ hnext 0 ⟨standup, 0⟩
    (by rw [hr]; rfl) rfl
  have hmissed : c'.shared.cancelled 0 = false := by
    refine missed_of_reaches hreach ht hnext ?_ ?_
    · cases hrun
      decide
    · cases hrun
      rfl
  rw [hmissed] at hhit
  cases hhit

end SummaryService

end MeetilyLocal
