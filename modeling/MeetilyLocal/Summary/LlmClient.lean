import MeetilyLocal.Database.ApiKeys
import MeetilyLocal.Library.Lowercase
import MeetilyLocal.Library.Purge
import MeetilyLocal.Library.Retry
import MeetilyLocal.Library.Text
import Mathlib.Algebra.Group.Int.Defs
import Mathlib.Algebra.Group.Nat.Defs

/-!
# The client of the language models

`summary/llm_client.rs`: `LlmConfig::resolve` reads from the settings what a call needs, and
`generate_summary` makes the call, up to three times if it fails in a way that may pass
(`send_chat_request` says which).

A call sends the same request each time, waits for one second and then for two, and its result is that of the
last request (`generateSummary_log`). What it sends, and to whom, depends on the settings of its own
provider only: no sequence of changes to those of another one is seen in it (`ask_purge`).
-/

namespace MeetilyLocal

open SettingsRepository

namespace LlmClient

/-! ## Providers and their configuration -/

/-- `LLMProvider` -/
inductive LLMProvider : Type where
  | openAI : LLMProvider
  | claude : LLMProvider
  | groq : LLMProvider
  | ollama : LLMProvider
  | openRouter : LLMProvider
  | builtInAI : LLMProvider
  | customOpenAI : LLMProvider
  deriving DecidableEq

namespace LLMProvider

/-- `LLMProvider::from_str` -/
def fromStr (tables : CaseTables) (s : String) : Except String LLMProvider :=
  match String.ofList (tables.lowercase s.toList) with
  | "openai" => .ok .openAI
  | "claude" => .ok .claude
  | "groq" => .ok .groq
  | "ollama" => .ok .ollama
  | "openrouter" => .ok .openRouter
  | "builtin-ai" | "local-llama" | "localllama" => .ok .builtInAI
  | "custom-openai" => .ok .customOpenAI
  | _ => .error ("Unsupported LLM provider: " ++ s)

/-- A provider whose key, if it has one, is not in a column. -/
def keyless (provider : LLMProvider) : Bool :=
  provider = .ollama || provider = .builtInAI || provider = .customOpenAI

end LLMProvider

/-- `CustomOpenAIConfig` -/
structure CustomOpenAIConfig : Type where
  /-- where the server is -/
  endpoint : String
  /-- its key, if it needs one -/
  apiKey : Option String
  /-- its model -/
  model : String
  /-- as an `i32` -/
  maxTokens : Option ℤ
  /-- for sampling -/
  temperature : Option Float32
  /-- for sampling -/
  topP : Option Float32

/-- `LlmConfig` -/
structure LlmConfig : Type where
  /-- whom to ask -/
  provider : LLMProvider
  /-- its model -/
  model : String
  /-- its key, empty if it needs none -/
  apiKey : String
  /-- where Ollama listens -/
  ollamaEndpoint : Option String
  /-- where a custom server is -/
  customOpenAIEndpoint : Option String
  /-- as a `u32` -/
  maxTokens : Option ℕ
  /-- for sampling -/
  temperature : Option Float32
  /-- for sampling -/
  topP : Option Float32
  /-- where the models of the built-in provider are -/
  appDataDir : Option String

/-- What the outside decides about a read of the settings, and how a configuration is written. -/
structure SettingsEnv : Type where
  /-- the tables of `str::to_lowercase` -/
  tables : CaseTables
  /-- why the database does not execute the statement -/
  fails : Option String
  /-- an error of `sqlx` as it is shown -/
  shown : String → String
  /-- `serde_json::from_str` -/
  parse : String → Except String CustomOpenAIConfig
  /-- `serde_json::to_string` -/
  write : CustomOpenAIConfig → Except String String

namespace SettingsEnv

variable (env : SettingsEnv)

/-- `get_custom_openai_config` -/
def getCustomOpenAIConfig (table : SettingsTable) : Except String (Option CustomOpenAIConfig) :=
  match env.fails with
  | some e => .error e
  | none =>
    match table.config with
    | none => .ok none
    | some json =>
      match env.parse json with
      | .error e => .error ("Invalid JSON in customOpenAIConfig: " ++ e)
      | .ok config => .ok (some config)

/-- `get_api_key`, where the database may fail -/
def getApiKey (table : SettingsTable) (provider : String) : Except String (Option String) :=
  match env.fails with
  | none =>
    SettingsRepository.getApiKey (fun json => (env.parse json).map (·.apiKey)) table provider
  | some e =>
    if provider = "custom-openai" then .error e
    else
      match apiKeyColumn provider with
      | .error message => .error message
      | .ok none => .ok none
      | .ok (some _) => .error e

/-- The endpoint in the row, none if it cannot be read. -/
def ollamaEndpoint (table : SettingsTable) : Option String :=
  match env.fails with
  | some _ => none
  | none => table.bind (·.ollamaEndpoint)

end SettingsEnv

/-- `i32 as u32` -/
def asU32 (t : ℤ) : ℕ := (t % 2 ^ 32).toNat

/-- The key that `LlmConfig::resolve` finds for a provider that has a column for it. -/
def resolveKey (env : SettingsEnv) (table : SettingsTable) (providerName : String) :
    Except String String :=
  match env.getApiKey table providerName with
  | .error e => .error ("failed to read API key for " ++ providerName ++ ": " ++ env.shown e)
  | .ok key =>
    match key.filter (· ≠ "") with
    | some k => .ok k
    | none => .error ("API key not found for " ++ providerName)

/-- `LlmConfig::resolve` -/
def resolve (env : SettingsEnv) (table : SettingsTable) (providerName modelName : String)
    (appDataDir : Option String) : Except String LlmConfig := do
  let provider ← LLMProvider.fromStr env.tables providerName
  let apiKey ← if provider.keyless then .ok "" else resolveKey env table providerName
  let ollamaEndpoint := if provider = .ollama then env.ollamaEndpoint table else none
  if provider = .customOpenAI then
    match env.getCustomOpenAIConfig table with
    | .error e => .error ("failed to read custom OpenAI config: " ++ env.shown e)
    | .ok none => .error "custom OpenAI provider selected but not configured"
    | .ok (some config) =>
      .ok ⟨provider, modelName, config.apiKey.getD "", ollamaEndpoint, some config.endpoint,
        config.maxTokens.map asU32, config.temperature, config.topP, appDataDir⟩
  else
    .ok ⟨provider, modelName, apiKey, ollamaEndpoint, none, none, none, none, appDataDir⟩

/-! ## Requests -/

/-- `ChatMessage` -/
structure ChatMessage : Type where
  /-- `system` or `user` -/
  role : String
  /-- the prompt -/
  content : String

/-- The body of a request. -/
inductive RequestBody : Type where
  /-- `ChatRequest`: the model, the messages, `max_tokens`, `temperature` and `top_p` -/
  | chat : String → List ChatMessage → Option ℕ → Option Float32 → Option Float32 → RequestBody
  /-- `ClaudeRequest`: the model, `max_tokens`, the system prompt and the messages -/
  | claude : String → ℕ → String → List ChatMessage → RequestBody

/-- A request. -/
structure HttpRequest : Type where
  /-- where it is posted -/
  url : String
  /-- its headers -/
  headers : List (String × String)
  /-- its body, as JSON -/
  body : RequestBody

/-- `CLAUDE_DEFAULT_MAX_TOKENS` -/
def claudeDefaultMaxTokens : ℕ := 8192

/-- `MAX_ATTEMPTS` -/
def maxAttempts : ℕ := 3

/-- What is said of a call that was cancelled. -/
def cancelledMessage : String := "Summary generation was cancelled"

/-- The parts of `LlmConfig` a request is built from, where `validHeader` says what can be the value of a
header. -/
def apiUrl (validHeader : String → Bool) (config : LlmConfig) :
    Except String (String × List (String × String)) :=
  match config.provider with
  | .openAI => .ok ("https://api.openai.com/v1/chat/completions", [])
  | .groq => .ok ("https://api.groq.com/openai/v1/chat/completions", [])
  | .openRouter => .ok ("https://openrouter.ai/api/v1/chat/completions", [])
  | .ollama =>
    .ok (config.ollamaEndpoint.getD "http://localhost:11434" ++ "/v1/chat/completions", [])
  | .customOpenAI =>
    match config.customOpenAIEndpoint with
    | none => .error "Custom OpenAI endpoint not configured"
    | some endpoint =>
      .ok (String.ofList (endpoint.toList.rdropWhile (· = '/')) ++ "/chat/completions", [])
  | .claude =>
    if validHeader config.apiKey then
      .ok ("https://api.anthropic.com/v1/messages",
        [("x-api-key", config.apiKey), ("anthropic-version", "2023-06-01")])
    else .error "Invalid API key format"
  -- does not come here
  | .builtInAI => .error "BuiltInAI is handled before the HTTP path"

/-- The header with the key, for the others than Claude; none without a key. -/
def bearer (validHeader : String → Bool) (config : LlmConfig) :
    Except String (List (String × String)) :=
  if config.provider ≠ .claude ∧ config.apiKey ≠ "" then
    if validHeader ("Bearer " ++ config.apiKey) then
      .ok [("authorization", "Bearer " ++ config.apiKey)]
    else .error "Invalid authorization header"
  else .ok []

/-- The body of a request. -/
def requestBody (config : LlmConfig) (systemPrompt userPrompt : String) : RequestBody :=
  if config.provider ≠ .claude then
    .chat config.model [⟨"system", systemPrompt⟩, ⟨"user", userPrompt⟩] config.maxTokens
      config.temperature config.topP
  else
    .claude config.model (config.maxTokens.getD claudeDefaultMaxTokens) systemPrompt
      [⟨"user", userPrompt⟩]

/-- The request of `send_chat_request`. -/
def chatRequest (validHeader : String → Bool) (config : LlmConfig)
    (systemPrompt userPrompt : String) : Except String HttpRequest := do
  let (url, headers) ← apiUrl validHeader config
  let authorization ← bearer validHeader config
  .ok ⟨url, headers ++ authorization ++ [("content-type", "application/json")],
    requestBody config systemPrompt userPrompt⟩

/-! ## Answers -/

/-- `AttemptError` -/
structure AttemptError : Type where
  /-- what is said -/
  message : String
  /-- whether another attempt is made -/
  retryable : Bool

/-- A response, as `reqwest` reads it. -/
structure HttpResponse : Type where
  /-- its status -/
  status : ℕ
  /-- that, as it is shown -/
  statusText : String
  /-- its body, if it can be read -/
  text : Option String
  /-- the texts of its `choices`, or of its `content`, by the provider -/
  texts : Except String (List String)

/-- What becomes of a request. -/
inductive Sent : Type where
  /-- there is no answer within 300 seconds -/
  | timedOut : Sent
  /-- it cannot be sent -/
  | failed : String → Sent
  /-- the call is cancelled before there is an answer -/
  | cancelled : Sent
  /-- there is an answer -/
  | response : HttpResponse → Sent

/-- What `send_chat_request` makes of it. -/
def outcome : Sent → Except AttemptError String
  | .timedOut => .error ⟨"LLM request timed out after 300 seconds", false⟩
  | .failed e => .error ⟨"Failed to send request to LLM: " ++ e, true⟩
  | .cancelled => .error ⟨cancelledMessage, false⟩
  | .response r =>
    if 200 ≤ r.status ∧ r.status < 300 then
      match r.texts with
      | .error e => .error ⟨"Failed to parse LLM response: " ++ e, false⟩
      | .ok [] => .error ⟨"No content in LLM response", false⟩
      | .ok (text :: _) => .ok (String.ofList (trim text.toList))
    else
      .error ⟨"LLM API request failed (" ++ r.statusText ++ "): " ++ r.text.getD "Unknown error",
        r.status = 429 || (500 ≤ r.status && r.status < 600)⟩

/-! ## Calls -/

/-- What a call does that can be seen. -/
inductive LlmEvent : Type where
  /-- it makes a request -/
  | requested : HttpRequest → LlmEvent
  /-- it has waited, in seconds -/
  | waited : ℕ → LlmEvent

/-- What the outside decides about a call. -/
structure LlmEnv : Type where
  /-- what can be the value of a header -/
  validHeader : String → Bool
  /-- whether the call is cancelled before the attempt with this number -/
  cancelled : ℕ → Bool
  /-- whether it is while it waits behind the attempt with this number -/
  cancelledWaiting : ℕ → Bool
  /-- what becomes of the request of the attempt with this number -/
  sent : ℕ → HttpRequest → Sent
  /-- `generate_with_builtin` -/
  builtin : String → String → String → String → Except String String

/-- `send_chat_request` -/
def sendChatRequest (env : LlmEnv) (config : LlmConfig) (systemPrompt userPrompt : String) (k : ℕ)
    (log : List LlmEvent) : Except AttemptError String × List LlmEvent :=
  match chatRequest env.validHeader config systemPrompt userPrompt with
  | .error message => (.error ⟨message, false⟩, log)
  | .ok request => (outcome (env.sent k request), log ++ [.requested request])

/-- One attempt. -/
def attempt (env : LlmEnv) (config : LlmConfig) (systemPrompt userPrompt : String) (k : ℕ)
    (log : List LlmEvent) : Except AttemptError String × List LlmEvent :=
  if env.cancelled k then (.error ⟨cancelledMessage, false⟩, log)
  else sendChatRequest env config systemPrompt userPrompt k log

/-- It waits for twice as long each time. -/
def policy (env : LlmEnv) : RetryPolicy AttemptError (List LlmEvent) where
  retryable := AttemptError.retryable
  pause k log :=
    if env.cancelledWaiting k then (.error ⟨cancelledMessage, false⟩, log)
    else (.ok (), log ++ [.waited (2 ^ (k - 1))])

/-- `generate_summary`, with what it does -/
def generateSummary (env : LlmEnv) (config : LlmConfig) (systemPrompt userPrompt : String) :
    Except String String × List LlmEvent :=
  if env.cancelled 0 then (.error cancelledMessage, [])
  else if config.provider = .builtInAI then
    match config.appDataDir with
    | none => (.error "app_data_dir is required for BuiltInAI provider", [])
    | some appDataDir => (env.builtin appDataDir config.model systemPrompt userPrompt, [])
  else
    let (result, log) :=
      (policy env).run (attempt env config systemPrompt userPrompt) (maxAttempts - 1) 1 []
    (result.mapError (·.message), log)

/-- A call as it is made: with the configuration that the settings have. -/
def ask (settings : SettingsEnv) (env : LlmEnv) (table : SettingsTable)
    (providerName modelName : String) (appDataDir : Option String)
    (systemPrompt userPrompt : String) : Except String String × List LlmEvent :=
  match resolve settings table providerName modelName appDataDir with
  | .error e => (.error e, [])
  | .ok config => generateSummary env config systemPrompt userPrompt

/-! ## What a call does -/

section Calls

variable {env : LlmEnv} {config : LlmConfig} {systemPrompt userPrompt : String}
  {request : HttpRequest} {j k : ℕ} {log log' : List LlmEvent}

/-- A failure that may pass. -/
def Transient (sent : Sent) : Prop := ∃ e, outcome sent = .error e ∧ e.retryable = true

/-- Attempts that all failed so, each with the wait behind it. -/
def tries (request : HttpRequest) (j : ℕ) : List LlmEvent :=
  (List.range j).flatMap fun k => [.requested request, .waited (2 ^ k)]

/-- The first attempts failed in a way that may pass, and nothing was cancelled until the next one. -/
def Failed (env : LlmEnv) (request : HttpRequest) (j : ℕ) : Prop :=
  ∀ k < j, env.cancelled (k + 1) = false ∧ Transient (env.sent (k + 1) request) ∧
    env.cancelledWaiting (k + 1) = false

/-- How a call ends behind `j` attempts that failed. -/
inductive EndsWith (env : LlmEnv) (request : HttpRequest) (j : ℕ) :
    Except String String × List LlmEvent → Prop
  /-- one more attempt has the result, or fails for good, or is the last one -/
  | answered : env.cancelled (j + 1) = false →
      (Transient (env.sent (j + 1) request) → j + 1 = maxAttempts) →
      EndsWith env request j ((outcome (env.sent (j + 1) request)).mapError (·.message),
        tries request j ++ [.requested request])
  /-- it is cancelled before that -/
  | cancelled : env.cancelled (j + 1) = true →
      EndsWith env request j (.error cancelledMessage, tries request j)
  /-- it is cancelled while it waits for another one -/
  | cancelledWaiting : env.cancelled (j + 1) = false → Transient (env.sent (j + 1) request) →
      env.cancelledWaiting (j + 1) = true →
      EndsWith env request j (.error cancelledMessage, tries request j ++ [.requested request])

theorem tries_succ (request : HttpRequest) (j : ℕ) :
    tries request (j + 1) = tries request j ++ [.requested request, .waited (2 ^ j)] := by
  rw [tries, tries, List.range_succ, List.flatMap_append, List.flatMap_singleton]

theorem failed_succ (h : Failed env request j) (hc : env.cancelled (j + 1) = false)
    (hsent : Transient (env.sent (j + 1) request)) (hw : env.cancelledWaiting (j + 1) = false) :
    Failed env request (j + 1) := by
  intro k hk
  rcases Nat.lt_succ_iff_lt_or_eq.mp hk with hlt | rfl
  · exact h k hlt
  · exact ⟨hc, hsent, hw⟩

/-- An attempt, where there is something to send. -/
theorem attempt_eq (h : chatRequest env.validHeader config systemPrompt userPrompt = .ok request) :
    attempt env config systemPrompt userPrompt k log =
      if env.cancelled k then (.error ⟨cancelledMessage, false⟩, log)
      else (outcome (env.sent k request), log ++ [.requested request]) := by
  rw [attempt, sendChatRequest, h]

/-- An attempt that fails so has made its request, and failed in a way that may pass. -/
theorem transient_of_attempt {e : AttemptError}
    (h : chatRequest env.validHeader config systemPrompt userPrompt = .ok request)
    (hfail : (attempt env config systemPrompt userPrompt k log).1 = .error e)
    (hretry : e.retryable = true) :
    env.cancelled k = false ∧ Transient (env.sent k request) ∧
      (attempt env config systemPrompt userPrompt k log).2 = log ++ [.requested request] := by
  rw [attempt_eq h] at hfail ⊢
  split at hfail
  · cases hfail
    cases hretry
  next hc => exact ⟨by simpa using hc, ⟨e, hfail, hretry⟩, by rw [if_neg hc]⟩

/-- A call with nothing to send fails with its first attempt. -/
theorem attempt_of_error {message : String}
    (h : chatRequest env.validHeader config systemPrompt userPrompt = .error message) :
    ∃ e, attempt env config systemPrompt userPrompt k log = (.error e, log) ∧
      e.retryable = false := by
  rw [attempt, sendChatRequest, h]
  split
  · exact ⟨_, rfl, rfl⟩
  · exact ⟨_, rfl, rfl⟩

/-- What the attempts that failed have left. -/
theorem failed_of_passesTo
    (h : chatRequest env.validHeader config systemPrompt userPrompt = .ok request)
    (hpass : (policy env).PassesTo (attempt env config systemPrompt userPrompt) 1 [] k log) :
    ∃ j, k = j + 1 ∧ log = tries request j ∧ Failed env request j := by
  refine hpass.induct (I := fun k log => ∃ j, k = j + 1 ∧ log = tries request j ∧ Failed env request j)
    ?_ ⟨0, rfl, rfl, fun k hk => absurd hk (Nat.not_lt_zero k)⟩
  rintro k log log' ⟨j, rfl, rfl, hfailed⟩ ⟨e, hfail, hretry, hpause, rfl⟩
  obtain ⟨hc, hsent, hleft⟩ := transient_of_attempt h hfail hretry
  rw [hleft, policy] at hpause ⊢
  cases hw : env.cancelledWaiting (j + 1) with
  | true =>
    simp only [hw, if_pos] at hpause
    cases hpause
  | false =>
    refine ⟨j + 1, rfl, ?_, failed_succ hfailed hc hsent hw⟩
    simp [hw, tries_succ]

/-- How the attempts end behind those that failed. -/
theorem endsWith_of_ends {result : Except AttemptError String × List LlmEvent}
    (h : chatRequest env.validHeader config systemPrompt userPrompt = .ok request)
    (hends : (policy env).Ends (attempt env config systemPrompt userPrompt) maxAttempts (j + 1)
      (tries request j) result) :
    EndsWith env request j (result.1.mapError AttemptError.message, result.2) := by
  cases hends with
  | attempt hlast =>
    rw [attempt_eq h] at hlast ⊢
    cases hc : env.cancelled (j + 1) with
    | true => exact .cancelled hc
    | false =>
      refine .answered hc ?_
      rintro ⟨e, he, hretry⟩
      exact hlast e (by simp [hc, he]) hretry
  | paused hfail hretry hended =>
    obtain ⟨hc, hsent, hleft⟩ := transient_of_attempt h hfail hretry
    rw [hleft, policy] at hended ⊢
    cases hw : env.cancelledWaiting (j + 1) with
    | true =>
      simp only [hw, if_pos] at hended ⊢
      cases hended
      exact .cancelledWaiting hc hsent hw
    | false => simp [hw] at hended

/-- **A call sends the same request each time**, at most three times: again only behind a failure that may
pass and the wait for it, and not once it is cancelled. Its result is that of the last attempt. A call that
sends nothing has no result, unless it is to the model that is built in. -/
theorem generateSummary_log (env : LlmEnv) (config : LlmConfig) (systemPrompt userPrompt : String) :
    ((generateSummary env config systemPrompt userPrompt).2 = [] ∧
      ∀ text, (generateSummary env config systemPrompt userPrompt).1 = .ok text →
        config.provider = .builtInAI) ∨
      ∃ request, chatRequest env.validHeader config systemPrompt userPrompt = .ok request ∧
        ∃ j < maxAttempts, Failed env request j ∧
          EndsWith env request j (generateSummary env config systemPrompt userPrompt) := by
  rw [generateSummary]
  split
  · exact .inl ⟨rfl, fun text h => by cases h⟩
  split
  next hbuiltin =>
    refine .inl ⟨?_, fun _ _ => hbuiltin⟩
    split <;> rfl
  cases hreq : chatRequest env.validHeader config systemPrompt userPrompt with
  | error message =>
    obtain ⟨e, hfail, hfatal⟩ : ∃ e, attempt env config systemPrompt userPrompt 1 [] = (.error e, []) ∧
        e.retryable = false := attempt_of_error hreq
    rw [RetryPolicy.run_of_fatal hfail hfatal]
    exact .inl ⟨rfl, fun text h => by cases h⟩
  | ok request =>
    obtain ⟨k, log, -, hk, hpass, hends⟩ :=
      (policy env).exists_last (attempt env config systemPrompt userPrompt) (maxAttempts - 1) 1 []
    obtain ⟨j, rfl, rfl, hfailed⟩ := failed_of_passesTo hreq hpass
    refine .inr ⟨request, rfl, j, by simp only [maxAttempts] at hk ⊢; omega, hfailed, ?_⟩
    exact endsWith_of_ends hreq hends

end Calls

/-! ## What the settings of other providers do to it -/

/-- A call that writes the settings. -/
inductive CredentialCall : Type where
  /-- `save_api_key`, `delete_api_key` or `save_model_config` -/
  | settings : SettingsCallAt → CredentialCall
  /-- `save_custom_openai_config`, and whether the database executes it -/
  | saveCustomOpenAIConfig : Bool → CustomOpenAIConfig → CredentialCall

/-- `save_custom_openai_config` -/
def saveCustomOpenAIConfig (env : SettingsEnv) (ok : Bool) (table : SettingsTable)
    (config : CustomOpenAIConfig) : Except String SettingsTable :=
  match env.write config with
  | .error e => .error ("Failed to serialize config to JSON: " ++ e)
  | .ok json =>
    if ok then
      match table with
      | some row => .ok (some { row with customOpenAIConfig := some json })
      | none => .ok (some ⟨"custom-openai", config.model, "large-v3", none, fun _ => none, some json⟩)
    else .error sqlError

/-- Make a call. -/
def CredentialCall.perform (env : SettingsEnv) :
    CredentialCall → SettingsTable → Except String SettingsTable
  | .settings c, table => c.perform table
  | .saveCustomOpenAIConfig ok config, table => LlmClient.saveCustomOpenAIConfig env ok table config

namespace LLMProvider

/-- The column with the key of a provider. -/
def column : LLMProvider → Option ApiKeyColumn
  | .openAI => some .openaiApiKey
  | .claude => some .anthropicApiKey
  | .groq => some .groqApiKey
  | .openRouter => some .openRouterApiKey
  | .ollama | .builtInAI | .customOpenAI => none

/-- What the settings have for a provider: its key, where it listens, or its configuration. -/
def own (provider : LLMProvider) (table : SettingsTable) : Option String :=
  match provider, provider.column with
  | _, some column => table.key column
  | .ollama, none => table.bind (·.ollamaEndpoint)
  | .customOpenAI, none => table.config
  | _, none => none

/-- A key is saved or deleted by this name. -/
def keyNamed (provider : LLMProvider) (name : String) : Bool :=
  match provider.column with
  | some column => name = column.provider
  | none => provider = .customOpenAI && name = "custom-openai"

/-- A call is about what the settings have for a provider. -/
def touches (provider : LLMProvider) : CredentialCall → Bool
  | .settings c =>
    match c.call with
    | .saveApiKey name _ | .deleteApiKey name => provider.keyNamed name
    | .saveModelConfig _ _ _ _ => provider = .ollama
  | .saveCustomOpenAIConfig _ _ => provider = .customOpenAI

/-- The settings, as they concern a provider; a call that fails changes nothing. -/
def settingsOf (env : SettingsEnv) (provider : LLMProvider) :
    Observed SettingsTable CredentialCall (Option String) where
  step table c := (c.perform env table).toOption.getD table
  observe := provider.own
  touches := provider.touches

section Own

variable {env : SettingsEnv} {provider : LLMProvider} {table table' : SettingsTable}
  {column : ApiKeyColumn} {key : Option String}

/-- What writes one column, and leaves the others. -/
structure WritesColumn (write : SettingsTable → SettingsTable) (column : ApiKeyColumn)
    (key : Option String) : Prop where
  /-- the column is written -/
  written : ∀ table, (write table).key column = key
  /-- the other keys stay -/
  kept : ∀ table column', column' ≠ column → (write table).key column' = table.key column'
  /-- so does the endpoint -/
  endpoint : ∀ table, (write table).bind (·.ollamaEndpoint) = table.bind (·.ollamaEndpoint)
  /-- and so does the configuration -/
  config : ∀ table, (write table).config = table.config

theorem WritesColumn.own_write {write : SettingsTable → SettingsTable}
    (h : WritesColumn write column key) (provider : LLMProvider) (table : SettingsTable) :
    provider.own (write table) = if provider.column = some column then key else provider.own table := by
  cases hcolumn : provider.column with
  | some column' =>
    rcases eq_or_ne column' column with rfl | hne
    · simp [own, hcolumn, h.written]
    · simp [own, hcolumn, hne, h.kept table column' hne]
  | none => cases provider <;> simp [own, hcolumn, h.endpoint, h.config]

/-- `save_api_key` and `delete_api_key` write the column of the provider, if they write at all. -/
def WritesKeyOf (name : String) (key : Option String)
    (perform : SettingsTable → Except String SettingsTable) : Prop :=
  (∀ table, (perform table).toOption.getD table = table) ∨
    ∃ column write, apiKeyColumn name = .ok (some column) ∧ WritesColumn write column key ∧
      ∀ table, perform table = .ok (write table)

theorem writesKeyOf_saveApiKey (ok : Bool) (name key : String) :
    WritesKeyOf name (some key) (SettingsRepository.saveApiKey ok · name key) := by
  unfold SettingsRepository.saveApiKey
  by_cases hcustom : name = "custom-openai"
  · exact .inl fun table => by simp [hcustom, Except.toOption]
  rcases hname : apiKeyColumn name with message | _ | column
  · exact .inl fun table => by simp [hcustom, Except.toOption]
  · exact .inl fun table => by simp [hcustom, Except.toOption]
  cases ok with
  | false => exact .inl fun table => by simp [hcustom, Except.toOption]
  | true =>
    let write (table : SettingsTable) : SettingsTable :=
      let row := table.getD ⟨"openai", "gpt-4o-2024-11-20", "large-v3", none, fun _ => none, none⟩
      some { row with apiKey := Function.update row.apiKey column (some key) }
    refine .inr ⟨column, write, hname, ⟨fun table => ?_, fun table column' hne => ?_, fun table => ?_,
      fun table => ?_⟩, fun table => ?_⟩
    · simp [write]
    · cases table <;> simp [write, hne]
    · cases table <;> rfl
    · cases table <;> rfl
    · simp [hcustom, write]

theorem writesKeyOf_deleteApiKey (ok : Bool) {name : String} (hcustom : name ≠ "custom-openai") :
    WritesKeyOf name none (SettingsRepository.deleteApiKey ok · name) := by
  unfold SettingsRepository.deleteApiKey
  rcases hname : apiKeyColumn name with message | _ | column
  · exact .inl fun table => by simp [hcustom, Except.toOption]
  · exact .inl fun table => by simp [hcustom, Except.toOption]
  cases ok with
  | false => exact .inl fun table => by simp [hcustom, Except.toOption]
  | true =>
    let write (table : SettingsTable) : SettingsTable :=
      table.map fun row => { row with apiKey := Function.update row.apiKey column none }
    refine .inr ⟨column, write, hname, ⟨fun table => ?_, fun table column' hne => ?_, fun table => ?_,
      fun table => ?_⟩, fun table => ?_⟩
    · cases table <;> simp [write]
    · cases table <;> simp [write, hne]
    · cases table <;> rfl
    · cases table <;> rfl
    · simp [hcustom, write]

/-- What a call does to what the settings have for a provider: nothing, or it is written, as the call
says. -/
def Writes (env : SettingsEnv) (provider : LLMProvider) (c : CredentialCall)
    (written : Option (Option String)) : Prop :=
  (provider.touches c = false → written = none) ∧
    ∀ table, provider.own ((c.perform env table).toOption.getD table) =
      written.getD (provider.own table)

/-- A call that fails, or leaves what the settings have for the provider. -/
theorem Writes.none {c : CredentialCall}
    (h : ∀ table, provider.own ((c.perform env table).toOption.getD table) = provider.own table) :
    Writes env provider c none := ⟨fun _ => rfl, h⟩

/-- A call that is about a key. -/
theorem exists_writes_of_key {c : CredentialCall} {name : String}
    (htouches : provider.touches c = provider.keyNamed name)
    (h : WritesKeyOf name key (c.perform env)) : ∃ written, Writes env provider c written := by
  rcases h with hsame | ⟨column, write, hname, hwrite, hperform⟩
  · exact ⟨_, .none fun table => by rw [hsame]⟩
  · refine ⟨if provider.column = some column then some key else none, fun htouch => ?_, fun table => ?_⟩
    · rw [if_neg]
      intro hcolumn
      rw [htouches, keyNamed, hcolumn, provider_of_apiKeyColumn hname] at htouch
      simp at htouch
    · rw [hperform]
      refine (hwrite.own_write provider table).trans ?_
      split <;> rfl

/-- The configuration of the model has the endpoint, and nothing else that a provider is asked with. -/
theorem exists_writes_saveModelConfig (env : SettingsEnv) (provider : LLMProvider) (ok : Bool)
    (name model whisperModel : String) (endpoint : Option String) :
    ∃ written, Writes env provider
      (.settings ⟨ok, .saveModelConfig name model whisperModel endpoint⟩) written := by
  cases ok with
  | false => exact ⟨_, .none fun _ => rfl⟩
  | true =>
    refine ⟨if provider = .ollama then some endpoint else none, fun htouch => ?_, fun table => ?_⟩
    · exact if_neg (of_decide_eq_false htouch)
    · cases table <;> cases provider <;> rfl

theorem exists_writes_saveCustomOpenAIConfig (env : SettingsEnv) (provider : LLMProvider) (ok : Bool)
    (config : CustomOpenAIConfig) :
    ∃ written, Writes env provider (.saveCustomOpenAIConfig ok config) written := by
  cases hwrite : env.write config with
  | error e =>
    exact ⟨_, .none fun table => by
      simp [CredentialCall.perform, LlmClient.saveCustomOpenAIConfig, hwrite, Except.toOption]⟩
  | ok json =>
    cases ok with
    | false =>
      exact ⟨_, .none fun table => by
        simp [CredentialCall.perform, LlmClient.saveCustomOpenAIConfig, hwrite, Except.toOption]⟩
    | true =>
      refine ⟨if provider = .customOpenAI then some (some json) else none, fun htouch => ?_,
        fun table => ?_⟩
      · exact if_neg (of_decide_eq_false htouch)
      · rw [CredentialCall.perform, LlmClient.saveCustomOpenAIConfig, hwrite]
        cases table <;> cases provider <;> rfl

/-- What a call does to what the settings have for a provider does not depend on anything else in them. -/
theorem exists_writes (env : SettingsEnv) (provider : LLMProvider) (c : CredentialCall) :
    ∃ written, Writes env provider c written := by
  rcases c with ⟨ok, call⟩ | ⟨ok, config⟩
  · cases call with
    | saveApiKey name key => exact exists_writes_of_key rfl (writesKeyOf_saveApiKey ok name key)
    | deleteApiKey name =>
      by_cases hcustom : name = "custom-openai"
      · subst hcustom
        cases ok with
        | false => exact ⟨_, .none fun _ => rfl⟩
        | true =>
          refine ⟨if provider = .customOpenAI then some none else none, fun htouch => ?_, fun table => ?_⟩
          · refine if_neg fun h => ?_
            subst h
            cases htouch
          · cases table <;> cases provider <;> rfl
      · exact exists_writes_of_key rfl (writesKeyOf_deleteApiKey ok hcustom)
    | saveModelConfig name model whisperModel endpoint =>
      exact exists_writes_saveModelConfig env provider ok name model whisperModel endpoint
  · exact exists_writes_saveCustomOpenAIConfig env provider ok config

/-- The calls about other providers are not seen, and what is seen of the others is only what they do. -/
theorem unwinds_settingsOf (env : SettingsEnv) (provider : LLMProvider) :
    (provider.settingsOf env).Unwinds where
  apart table c htouch := by
    obtain ⟨written, hnone, hown⟩ := exists_writes env provider c
    refine (hown table).trans ?_
    rw [hnone htouch]
    rfl
  alike table table' c h := by
    obtain ⟨written, -, hown⟩ := exists_writes env provider c
    refine (hown table).trans (Eq.trans ?_ (hown table').symm)
    exact congrArg _ h

end Own

end LLMProvider

/-! ## What a call is made with -/

section Resolve

variable {env : SettingsEnv} {provider : LLMProvider} {table table' : SettingsTable} {name : String}

/-- A lower-case name of ASCII is its own. -/
theorem lowercase_of_all (tables : CaseTables) {name : List Char}
    (h : name.all (fun c => decide (IsAscii c) && c.toLower == c) = true) :
    tables.lowercase name = name := by
  have hall : ∀ c ∈ name, IsAscii c ∧ c.toLower = c := by simpa using h
  rw [CaseTables.lowercase, CaseTables.lowercaseFrom_of_ascii fun c hc => (hall c hc).1]
  rw [List.map_congr_left fun c hc => (hall c hc).2, List.map_id']

/-- The names of the columns are those of their providers. -/
theorem fromStr_provider (tables : CaseTables) (column : ApiKeyColumn) :
    ∃ provider, LLMProvider.fromStr tables column.provider = .ok provider ∧
      (provider.keyless = false → provider.column = some column) := by
  have hlower : tables.lowercase column.provider.toList = column.provider.toList :=
    lowercase_of_all tables (by cases column <;> decide)
  rw [LLMProvider.fromStr, hlower]
  cases column
  · exact ⟨.openAI, rfl, fun _ => rfl⟩
  · exact ⟨.claude, rfl, fun _ => rfl⟩
  · exact ⟨.ollama, rfl, fun h => by cases h⟩
  · exact ⟨.groq, rfl, fun _ => rfl⟩
  · exact ⟨.openRouter, rfl, fun _ => rfl⟩

/-- Nothing is read for a name without a column. -/
theorem getApiKey_congr (hcustom : name ≠ "custom-openai")
    (hcolumn : ∀ column, apiKeyColumn name ≠ .ok (some column)) :
    env.getApiKey table name = env.getApiKey table' name := by
  simp only [SettingsEnv.getApiKey, SettingsRepository.getApiKey, hcustom, if_false]
  rcases hname : apiKeyColumn name with message | _ | column
  · rfl
  · rfl
  · exact absurd hname (hcolumn column)

/-- What is found for a name with a column is what stands there. -/
theorem toOption_resolveKey_column {column : ApiKeyColumn} (hcustom : name ≠ "custom-openai")
    (hcolumn : apiKeyColumn name = .ok (some column)) :
    (resolveKey env table name).toOption =
      if env.fails = none then (table.key column).filter (· ≠ "") else none := by
  rw [resolveKey, SettingsEnv.getApiKey]
  cases env.fails with
  | some e => simp [hcustom, hcolumn, Except.toOption]
  | none =>
    simp only [SettingsRepository.getApiKey, hcustom, hcolumn, if_false]
    rcases table with _ | row
    · rfl
    · cases hrow : row.apiKey column with
      | none => simp [hrow, Except.toOption]
      | some key =>
        simp only [hrow, SettingsTable.key_some, if_true]
        cases (some key).filter (· ≠ "") <;> rfl

/-- The key that is found is that of the provider. -/
theorem toOption_resolveKey (hname : LLMProvider.fromStr env.tables name = .ok provider)
    (hkeyless : provider.keyless = false) (h : provider.own table = provider.own table') :
    (resolveKey env table name).toOption = (resolveKey env table' name).toOption := by
  have hcustom : name ≠ "custom-openai" := by
    rintro rfl
    have hlower : env.tables.lowercase "custom-openai".toList = "custom-openai".toList :=
      lowercase_of_all env.tables (by decide)
    rw [LLMProvider.fromStr, hlower] at hname
    cases hname
    cases hkeyless
  by_cases hcolumn : ∃ column, apiKeyColumn name = .ok (some column)
  · obtain ⟨column, hcolumn⟩ := hcolumn
    rw [toOption_resolveKey_column hcustom hcolumn, toOption_resolveKey_column hcustom hcolumn]
    obtain rfl := provider_of_apiKeyColumn hcolumn
    obtain ⟨provider', hprovider, hown⟩ := fromStr_provider env.tables column
    obtain rfl : provider' = provider := Except.ok.inj (hprovider.symm.trans hname)
    simp only [LLMProvider.own, hown hkeyless] at h
    rw [h]
  · rw [resolveKey, resolveKey, getApiKey_congr hcustom (not_exists.mp hcolumn)]

/-- What a call is made with depends on what the settings have for its provider. -/
theorem toOption_resolve (hname : LLMProvider.fromStr env.tables name = .ok provider)
    (h : provider.own table = provider.own table') (modelName : String) (appDataDir : Option String) :
    (resolve env table name modelName appDataDir).toOption =
      (resolve env table' name modelName appDataDir).toOption := by
  cases hkeyless : provider.keyless with
  | false =>
    have hne : provider ≠ .ollama ∧ provider ≠ .customOpenAI := by
      constructor <;> rintro rfl <;> cases hkeyless
    have hkey := toOption_resolveKey hname hkeyless h
    simp only [resolve, hname, hkeyless, hne.1, hne.2, if_false, bind, Except.bind]
    generalize resolveKey env table name = key at hkey ⊢
    generalize resolveKey env table' name = key' at hkey ⊢
    cases key <;> cases key' <;> cases hkey <;> rfl
  | true =>
    simp only [resolve, hname, hkeyless, if_true, bind, Except.bind]
    cases provider with
    | openAI | claude | groq | openRouter => cases hkeyless
    | builtInAI => rfl
    | ollama =>
      have hendpoint : env.ollamaEndpoint table = env.ollamaEndpoint table' := by
        rw [SettingsEnv.ollamaEndpoint, SettingsEnv.ollamaEndpoint]
        split
        · rfl
        · exact h
      rw [hendpoint]
      rfl
    | customOpenAI =>
      have hconfig : table.config = table'.config := h
      rw [SettingsEnv.getCustomOpenAIConfig, SettingsEnv.getCustomOpenAIConfig, hconfig]
      rfl

end Resolve

/-- The settings after some calls. -/
def settingsAfter (env : SettingsEnv) (calls : List CredentialCall) (table : SettingsTable) :
    SettingsTable :=
  calls.foldl (fun table c => (c.perform env table).toOption.getD table) table

/-- The calls that are about the provider with this name. -/
def callsAbout (env : SettingsEnv) (name : String) (calls : List CredentialCall) :
    List CredentialCall :=
  match LLMProvider.fromStr env.tables name with
  | .ok provider => calls.filter provider.touches
  | .error _ => []

end LlmClient

end MeetilyLocal
