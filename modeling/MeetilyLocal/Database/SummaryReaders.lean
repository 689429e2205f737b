import MeetilyLocal.Database.SummaryProcesses
import MeetilyLocal.Library.JsonValue
import MeetilyLocal.Library.Text

/-!
# Readers of summaries

The column `result` of `summary_processes` has three writers and three readers: the page of the
meeting and a run that completes store `{"markdown": m}`, the MCP server's `update_summary` stores
`m`; the export (`collect`) and the page (`refresh_summary`) read the field `markdown` of an object,
and the MCP server's `get_meeting` reads the column as it is.

So each program reads what it has stored itself, and neither reads what the other has stored
(`returns_iff`).
-/

namespace MeetilyLocal

open Json SummaryProcessesRepository

/-- How JSON is printed and read. -/
structure SummaryCodec : Type where
  /-- `serde_json::to_string`, none if it fails -/
  toString : Value → Option String
  /-- `serde_json::from_str`, none if it fails -/
  fromStr : String → Option Value

/-! ## Writers -/

/-- What the page stores. -/
def summaryJson (markdown : String) : Value := .object [("markdown", .string markdown)]

/-- What a run stores: the number of chunks that failed is there if it is not zero. -/
def resultJson (markdown : String) (failedChunks : UInt64) : Value :=
  if 0 < failedChunks then
    .object (insert "failed_chunks" (.number (.posInt failedChunks))
      [("markdown", .string markdown)])
  else summaryJson markdown

/-- Who stores a summary. -/
inductive SummaryWriter : Type where
  /-- the page: `update_meeting_summary` -/
  | userSave : SummaryWriter
  /-- a run: `update_process_completed`, with the chunks that failed and those processed -/
  | completed : UInt64 → ℤ → Float → SummaryWriter
  /-- the MCP server: `update_summary`, with the status it has read before -/
  | agentSave : Option String → SummaryWriter

/-- The call of a writer. -/
def SummaryWriter.call (codec : SummaryCodec) (w : SummaryWriter) (markdown : String) :
    SummaryCall :=
  match w with
  | userSave => .userSave (codec.toString (summaryJson markdown))
  | completed failedChunks chunkCount processingTime =>
    .completed (codec.toString (resultJson markdown failedChunks)) chunkCount processingTime
  | agentSave existingStatus => .agentSave existingStatus markdown

/-! ## Readers -/

/-- `value.get("markdown").and_then(|v| v.as_str())` -/
def extractMarkdown : Value → Option String
  | .object entries =>
    match entries.lookup "markdown" with
    | some (.string markdown) => some markdown
    | _ => none
  | _ => none

/-- The summary of an export: `collect`. -/
def exportedSummary (codec : SummaryCodec) (loaded : Except String (Option SummaryProcess)) :
    Option String :=
  ((((loaded.toOption.join.bind (·.result)).bind codec.fromStr).bind extractMarkdown).filter
    fun markdown => !(trim markdown.toList).isEmpty)

/-- What the page shows beside the summary. -/
inductive SummaryPhase : Type where
  /-- nothing -/
  | idle : SummaryPhase
  /-- that the row is loaded -/
  | loading : SummaryPhase
  /-- that a summary is generated -/
  | generating : SummaryPhase
  /-- what went wrong -/
  | error : String → SummaryPhase

/-- The page of a meeting. -/
structure SummaryView : Type where
  /-- the summary -/
  summaryMarkdown : String
  /-- it is not empty -/
  summaryHasContent : Bool
  /-- what is shown beside it -/
  summaryPhase : SummaryPhase

/-- The phase by the status of a row. -/
def SummaryPhase.ofProcess (process : SummaryProcess) : SummaryPhase :=
  match process.status.toLower with
  | "processing" | "pending" | "summarizing" => generating
  | "failed" | "error" => error (process.error.getD "Summary generation failed")
  | _ => idle

/-- `refresh_summary`: the page of the meeting whose row was loaded. -/
def refreshSummary (codec : SummaryCodec) (view : SummaryView)
    (loaded : Except String (Option SummaryProcess)) : SummaryView :=
  match loaded with
  | .ok (some process) =>
    let shown :=
      match (process.result.bind codec.fromStr).bind extractMarkdown with
      | some markdown =>
        { view with summaryMarkdown := markdown, summaryHasContent := !markdown.isEmpty }
      | none => view
    { shown with summaryPhase := .ofProcess process }
  | .ok none => { view with summaryPhase := .idle }
  | .error e => { view with summaryPhase := .error ("Failed to load summary: " ++ e) }

namespace Mcp

/-- What an agent reads about the summary of a meeting. -/
structure MeetingDetail : Type where
  /-- the summary -/
  summary : Option String
  /-- where its generation stands -/
  summaryStatus : Option String

/-- `get_meeting` of the MCP server, none for a meeting that is not known. -/
def getMeeting (db : SummaryDatabase) (meetingId : String) : Option MeetingDetail :=
  (db.meetings meetingId).map fun _ =>
    { summary := (storedSummary db meetingId).filter fun s => !s.isEmpty
      summaryStatus := (db.processes meetingId).map (·.status) }

end Mcp

/-- Who reads a summary. -/
inductive SummaryReader : Type where
  /-- the export -/
  | exporter : SummaryReader
  /-- the page -/
  | page : SummaryReader
  /-- the MCP server -/
  | agent : SummaryReader

/-- A reader returns a text; the page does so whatever it has shown before. -/
def SummaryReader.Returns (r : SummaryReader) (codec : SummaryCodec) (db : SummaryDatabase)
    (meetingId markdown : String) : Prop :=
  match r with
  | exporter => exportedSummary codec (.ok (getSummaryData db meetingId)) = some markdown
  | page => ∀ view,
      (refreshSummary codec view (.ok (getSummaryData db meetingId))).summaryMarkdown = markdown
  | agent => (Mcp.getMeeting db meetingId).bind (·.summary) = some markdown

/-! ## Which of them agree -/

/-- The texts that a reader returns of those a writer has stored: an export leaves out a blank
summary and the MCP server an empty one, and each program reads only its own. -/
def SummaryWriter.Agrees (w : SummaryWriter) (r : SummaryReader) (markdown : String) : Prop :=
  match w, r with
  | userSave, .page | completed _ _ _, .page => True
  | userSave, .exporter | completed _ _ _, .exporter => trim markdown.toList ≠ []
  | agentSave _, .agent => markdown ≠ ""
  | userSave, .agent | completed _ _ _, .agent | agentSave _, .exporter | agentSave _, .page =>
    False

/-- What is stored as JSON. -/
def SummaryWriter.json (w : SummaryWriter) (markdown : String) : Option Value :=
  match w with
  | userSave => some (summaryJson markdown)
  | completed failedChunks _ _ => some (resultJson markdown failedChunks)
  | agentSave _ => none

namespace SummaryCodec

/-- A value is read back from the text it was printed as. -/
def ReadsBack (codec : SummaryCodec) (value : Value) : Prop :=
  ∀ text, codec.toString value = some text → codec.fromStr text = some value

/-- The keys and texts of an object stand in the text it was read from, in quotes, with a colon
between the two and braces around them. -/
def Grammatical (codec : SummaryCodec) : Prop :=
  ∀ text entries key s, codec.fromStr text = some (.object entries) →
    entries.lookup key = some (.string s) → key.length + s.length + 7 ≤ text.length

end SummaryCodec

section Agreement

variable {codec : SummaryCodec} {env : SqlEnv} {db db' : SummaryDatabase}
  {meetingId text markdown : String} {value : Value}

@[simp] theorem extractMarkdown_summaryJson (markdown : String) :
    extractMarkdown (summaryJson markdown) = some markdown := rfl

/-- The number of failed chunks is not in the way. -/
@[simp] theorem extractMarkdown_resultJson (markdown : String) (failedChunks : UInt64) :
    extractMarkdown (resultJson markdown failedChunks) = some markdown := by
  unfold resultJson
  split
  · simp [extractMarkdown, lookup_insert]
  · rfl

/-- A text is not the summary in the JSON that it is. -/
theorem ne_of_extractMarkdown (h : codec.Grammatical) (hread : codec.fromStr text = some value)
    (hextract : extractMarkdown value = some markdown) : markdown ≠ text := by
  rintro rfl
  unfold extractMarkdown at hextract
  split at hextract
  · next entries =>
    split at hextract
    · next found hlookup =>
      obtain rfl := Option.some.inj hextract
      have hlength := h _ _ _ _ hread hlookup
      omega
    · cases hextract
  · cases hextract

/-- What is loaded is what is stored. -/
theorem bind_result_getSummaryData (db : SummaryDatabase) (meetingId : String) :
    (Except.ok (getSummaryData db meetingId) : Except String _).toOption.join.bind (·.result) =
      storedSummary db meetingId := rfl

/-- What the page shows of a row that is there. -/
theorem refreshSummary_of_stored (view : SummaryView)
    (hstored : storedSummary db meetingId = some text) :
    (refreshSummary codec view (.ok (getSummaryData db meetingId))).summaryMarkdown =
      ((codec.fromStr text).bind extractMarkdown).getD view.summaryMarkdown := by
  obtain ⟨process, hprocess, hresult⟩ := Option.bind_eq_some_iff.mp hstored
  rw [hprocess]
  simp only [refreshSummary, hresult, Option.bind_some]
  cases (codec.fromStr text).bind extractMarkdown <;> rfl

/-- Who reads what the application has stored. -/
theorem returns_of_json (r : SummaryReader) (hgrammatical : codec.Grammatical)
    (hstored : storedSummary db meetingId = some text) (hread : codec.fromStr text = some value)
    (hextract : extractMarkdown value = some markdown) :
    r.Returns codec db meetingId markdown ↔ SummaryWriter.userSave.Agrees r markdown := by
  cases r with
  | exporter =>
    simp [SummaryReader.Returns, SummaryWriter.Agrees, exportedSummary, bind_result_getSummaryData,
      hstored, hread, hextract]
  | page =>
    refine iff_of_true ?_ trivial
    intro view
    rw [refreshSummary_of_stored view hstored, hread, Option.bind_some, hextract, Option.getD_some]
  | agent =>
    refine iff_of_false ?_ id
    intro h
    obtain ⟨detail, hdetail, hsummary⟩ := Option.bind_eq_some_iff.mp h
    obtain ⟨_, -, rfl⟩ := Option.map_eq_some_iff.mp hdetail
    simp only [hstored] at hsummary
    obtain ⟨he, -⟩ := Option.filter_eq_some_iff.mp hsummary
    exact ne_of_extractMarkdown hgrammatical hread hextract (Option.some.inj he).symm

/-- Who reads what an agent has stored. -/
theorem returns_of_text (r : SummaryReader) (existingStatus : Option String)
    (hgrammatical : codec.Grammatical) (hstored : storedSummary db meetingId = some markdown)
    (hmeeting : (db.meetings meetingId).isSome) :
    r.Returns codec db meetingId markdown ↔
      (SummaryWriter.agentSave existingStatus).Agrees r markdown := by
  have hextract : (codec.fromStr markdown).bind extractMarkdown ≠ some markdown := by
    intro h
    obtain ⟨value, hread, hvalue⟩ := Option.bind_eq_some_iff.mp h
    exact ne_of_extractMarkdown hgrammatical hread hvalue rfl
  cases r with
  | exporter =>
    refine iff_of_false ?_ id
    intro h
    obtain ⟨h, -⟩ := Option.filter_eq_some_iff.mp h
    rw [bind_result_getSummaryData, hstored, Option.bind_some] at h
    exact hextract h
  | page =>
    refine iff_of_false ?_ id
    intro h
    -- a page that has shown another text keeps it, unless it reads one that is not the summary
    have hshown := h ⟨markdown ++ "\n", true, .idle⟩
    rw [refreshSummary_of_stored _ hstored] at hshown
    cases hfound : (codec.fromStr markdown).bind extractMarkdown with
    | none => simp [hfound] at hshown
    | some found =>
      rw [hfound] at hshown hextract
      exact hextract (congrArg some hshown)
  | agent =>
    obtain ⟨_, hfound⟩ := Option.isSome_iff_exists.mp hmeeting
    simp [SummaryReader.Returns, SummaryWriter.Agrees, Mcp.getMeeting, hfound, hstored]

/-- What is stored once a writer has succeeded and there is a row. -/
theorem storedSummary_of_writer {w : SummaryWriter}
    (h : (⟨env, meetingId, w.call codec markdown⟩ : SummaryCallAt).perform db = .ok (true, db'))
    (hrow : (db'.processes meetingId).isSome) :
    storedSummary db' meetingId =
      match w.json markdown with
      | some value => codec.toString value
      | none => some markdown := by
  cases w with
  | userSave =>
    have hbefore : (db.processes meetingId).isSome := by
      obtain ⟨hsaved, -⟩ | ⟨_, -, -, -, hprocesses⟩ := of_updateMeetingSummary h
      · cases hsaved
      · simpa [hprocesses] using hrow
    obtain ⟨-, row, hrow, hresult⟩ := row_updateMeetingSummary h fun _ => hbefore
    rw [storedSummary, hrow]
    exact hresult
  | completed failedChunks chunkCount processingTime =>
    obtain ⟨saved, hsaved, rfl, -⟩ := of_map_eq_ok h
    have hbefore : (db.processes meetingId).isSome := by
      unfold updateProcessCompleted at hsaved
      split at hsaved
      · cases hsaved
      · split at hsaved
        · obtain rfl := Except.ok.inj hsaved
          simpa using hrow
        · cases hsaved
    exact (storedSummary_updateProcessCompleted hsaved hbefore).2
  | agentSave existingStatus =>
    obtain ⟨write, hwrite, rfl, -⟩ := of_map_eq_ok h
    exact storedSummary_updateSummary hwrite

end Agreement

/-- **Each program reads its own.** A reader returns the text that a writer has stored exactly where
the two agree. -/
theorem returns_iff {codec : SummaryCodec} {env : SqlEnv} {db db' : SummaryDatabase}
    {meetingId markdown : String} (w : SummaryWriter) (r : SummaryReader)
    (hgrammatical : codec.Grammatical)
    (hreads : ∀ value ∈ w.json markdown, codec.ReadsBack value)
    (hstored : (⟨env, meetingId, w.call codec markdown⟩ : SummaryCallAt).perform db =
      .ok (true, db'))
    (hmeeting : (db'.meetings meetingId).isSome) (hrow : (db'.processes meetingId).isSome) :
    r.Returns codec db' meetingId markdown ↔ w.Agrees r markdown := by
  have htext := storedSummary_of_writer hstored hrow
  have hserialized : ∀ value, w.json markdown = some value → ∃ text,
      codec.toString value = some text ∧ storedSummary db' meetingId = some text := by
    intro value hvalue
    obtain ⟨text, htoString⟩ : ∃ text, codec.toString value = some text := by
      rw [← Option.isSome_iff_exists]
      cases w with
      | userSave =>
        obtain rfl := Option.some.inj hvalue
        obtain ⟨hsaved, -⟩ | ⟨result, -, hresult, -, -⟩ := of_updateMeetingSummary hstored
        · cases hsaved
        · simp [hresult]
      | completed failedChunks chunkCount processingTime =>
        obtain rfl := Option.some.inj hvalue
        obtain ⟨saved, hsaved, -, -⟩ := of_map_eq_ok hstored
        unfold updateProcessCompleted at hsaved
        split at hsaved
        · cases hsaved
        · next hresult => simp [hresult]
      | agentSave existingStatus => cases hvalue
    simp only [hvalue] at htext
    exact ⟨text, htoString, htext.trans htoString⟩
  cases w with
  | userSave =>
    obtain ⟨text, htoString, hstored⟩ := hserialized _ rfl
    exact returns_of_json r hgrammatical hstored (hreads _ rfl _ htoString) rfl
  | completed failedChunks chunkCount processingTime =>
    obtain ⟨text, htoString, hstored⟩ := hserialized _ rfl
    have hagrees := returns_of_json r hgrammatical hstored (hreads _ rfl _ htoString)
      (extractMarkdown_resultJson markdown failedChunks)
    cases r <;> exact hagrees
  | agentSave existingStatus => exact returns_of_text r existingStatus hgrammatical htext hmeeting

/-- The codec of the one document that has the summary `Notes`. -/
def notesCodec : SummaryCodec where
  toString value := (extractMarkdown value).map fun markdown =>
    "\x7b\"markdown\":\"" ++ markdown ++ "\"\x7d"
  fromStr text :=
    if text = "\x7b\"markdown\":\"Notes\"\x7d" then some (summaryJson "Notes") else none

theorem grammatical_notesCodec : notesCodec.Grammatical := by
  intro text entries key s hread hlookup
  unfold notesCodec at hread
  simp only at hread
  split at hread
  · next htext =>
    obtain rfl : [("markdown", Value.string "Notes")] = entries :=
      Value.object.inj (Option.some.inj hread)
    obtain ⟨rfl, hs⟩ : key = "markdown" ∧ Value.string "Notes" = .string s := by
      simpa [lookup_cons] using hlookup
    obtain rfl := Value.string.inj hs
    subst htext
    decide
  · cases hread

/-- What is stored for a meeting that has a summary. -/
def summarized : SummaryDatabase :=
  ⟨fun id => if id = "meeting-1" then some "2026-01-01T09:00:00+00:00" else none,
    fun id => if id = "meeting-1" then
      some ⟨"completed", "2026-01-01T09:00:00+00:00", "2026-01-01T09:00:00+00:00", none,
        some "\x7b\"markdown\":\"Draft\"\x7d", none, none, 1, 0, none, none⟩
      else none⟩

/-- The user saves, and the page shows what was saved. -/
theorem returns_page_userSave :
    ∃ db', (calmCall (SummaryWriter.userSave.call notesCodec "Notes")).perform summarized =
        .ok (true, db') ∧
      (SummaryReader.page.Returns notesCodec db' "meeting-1" "Notes" ↔
        SummaryWriter.userSave.Agrees .page "Notes") := by
  refine ⟨_, rfl, ?_⟩
  refine @returns_iff notesCodec (calmCall .cancelled).env summarized _ "meeting-1" "Notes"
    .userSave .page grammatical_notesCodec ?_ rfl rfl rfl
  intro value hvalue text htext
  obtain rfl := Option.some.inj hvalue
  obtain rfl := Option.some.inj htext
  rfl

/-- What an agent has stored is not exported, and the page keeps the text it has shown; what the
page has stored is JSON to the agent. -/
theorem not_returns_agentSave :
    (∃ db', (calmCall ((SummaryWriter.agentSave (some "completed")).call notesCodec "Notes")).perform
        summarized = .ok (true, db') ∧
      exportedSummary notesCodec (.ok (getSummaryData db' "meeting-1")) = none ∧
      (refreshSummary notesCodec ⟨"Draft", true, .loading⟩
        (.ok (getSummaryData db' "meeting-1"))).summaryMarkdown = "Draft") ∧
    ∃ db', (calmCall (SummaryWriter.userSave.call notesCodec "Notes")).perform summarized =
        .ok (true, db') ∧
      (Mcp.getMeeting db' "meeting-1").bind (·.summary) =
        some "\x7b\"markdown\":\"Notes\"\x7d" :=
  ⟨⟨_, rfl, rfl, rfl⟩, ⟨_, rfl, rfl⟩⟩

end MeetilyLocal
