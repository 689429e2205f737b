import Mathlib.Logic.Relation
import MeetilyLocal.Database.SummaryReaders
import MeetilyLocal.Library.TextPositions

/-!
# The summary on the page of a meeting

`generate_summary` of the page (`views/meeting/mod.rs`), with what goes on beside it: the run
(`process_transcript_background`), the deltas it streams, the task that reveals them on the page a few
characters at a time, and the poll that reads the row of the meeting every 1.5 seconds.

Nothing here makes a row or marks one as in progress; that is `create_or_reset_process`, which the page does
not call. So a finished summary reaches the page if the row is there and in progress for another reason, and
if the page shows the result when all deltas are revealed and no more come (`reaches_page`).
-/

namespace MeetilyLocal

namespace MeetingPage

open SummaryProcessesRepository

/-! ## The panel -/

/-- What the page has of the summary. -/
structure SummaryPanel : Type where
  /-- the summary and its phase -/
  view : SummaryView
  /-- what is rendered, `summary_state` -/
  text : String
  /-- what is still to be revealed, `summary_reveal_pending` -/
  pending : List Char
  /-- whether the reveal task runs -/
  revealing : Bool
  /-- whether the poll runs -/
  polling : Bool
  /-- what is to be revealed has a task that does -/
  revealing_of_pending : pending ≠ [] → revealing = true

namespace SummaryPanel

/-- `start_poll`; a poll that runs is dropped -/
def startPoll (panel : SummaryPanel) : SummaryPanel := { panel with polling := true }

/-- What `generate_summary` clears; what is to be revealed stays. -/
def clear (panel : SummaryPanel) : SummaryPanel :=
  { panel with view := ⟨"", false, .generating⟩, text := "" }

/-- The markdown of a row. -/
def markdownOf (codec : SummaryCodec) (loaded : Except String (Option SummaryProcess)) : Option String :=
  ((loaded.toOption.join.bind (·.result)).bind codec.fromStr).bind extractMarkdown

/-- Whether a row is in progress. -/
def isGenerating (loaded : Except String (Option SummaryProcess)) : Bool :=
  match loaded with
  | .ok (some process) =>
    match SummaryPhase.ofProcess process with
    | .generating => true
    | _ => false
  | _ => false

/-- `refresh_summary`, when the row was read -/
def refreshed (codec : SummaryCodec) (panel : SummaryPanel)
    (loaded : Except String (Option SummaryProcess)) : SummaryPanel :=
  let shown :=
    { panel with
      view := refreshSummary codec panel.view loaded
      text := (markdownOf codec loaded).getD panel.text }
  if isGenerating loaded then shown.startPoll else shown

/-- `on_summary_stream`, for a delta of this meeting -/
def onSummaryStream (reduceMotion : Bool) (panel : SummaryPanel) (delta : String) : SummaryPanel :=
  if delta = "" then panel
  else
    let panel :=
      { panel with
        view := { panel.view with
          summaryMarkdown := panel.view.summaryMarkdown ++ delta, summaryHasContent := true } }
    if reduceMotion then { panel with text := panel.text ++ delta }
    else
      { panel with
        pending := panel.pending ++ delta.toList
        revealing := true
        revealing_of_pending := fun _ => rfl }

/-- `summary_reveal_chars_per_tick`: an eighth of what is pending, but two bytes at least -/
def charsPerTick (pending : ℕ) : ℕ := min (max ((pending + 7) / 8) 2) pending

/-- So many bytes of a text, up to the next character, and the rest. -/
def drain : ℕ → List Char → List Char × List Char
  | 0, text => ([], text)
  | _ + 1, [] => ([], [])
  | n + 1, c :: text =>
    let (chunk, rest) := drain (n + 1 - c.utf8Size) text
    (c :: chunk, rest)

/-- A tick of the reveal task, which ends when nothing is left. -/
def revealTick (panel : SummaryPanel) : SummaryPanel :=
  let drained := drain (charsPerTick (Utf8.len panel.pending)) panel.pending
  { panel with
    text := panel.text ++ String.ofList drained.1
    pending := drained.2
    revealing := drained.2 ≠ []
    revealing_of_pending := fun h => decide_eq_true h }

end SummaryPanel

/-! ## A run and the page -/

/-- Where the run is. -/
inductive RunStage : Type where
  /-- the settings of the model are read -/
  | configuring
  /-- `process_transcript_background` -/
  | running
  /-- its summary is stored -/
  | succeeded (markdown : String)
  /-- there is no summary -/
  | failed

/-- A read of the row for the page. -/
inductive RowRead : Type where
  /-- it was asked for -/
  | asked
  /-- it is there -/
  | loaded (row : Option SummaryProcess)

/-- The page, and what goes on beside it. -/
structure World : Type where
  db : SummaryDatabase
  panel : SummaryPanel
  stage : RunStage
  /-- the reads that are under way -/
  reads : List RowRead

/-- What happens next. -/
inductive Act : Type where
  /-- the settings are there, or not -/
  | configured (found : Bool)
  /-- a delta arrives -/
  | delta (text : String)
  /-- the run stores its summary -/
  | completes (env : SqlEnv) (markdown : String) (failedChunks : UInt64) (chunkCount : ℤ)
      (processingTime : Float)
  /-- the run fails or is cancelled -/
  | fails (env : SqlEnv) (status error : String)
  /-- the timer of the poll -/
  | polls
  /-- the row is read -/
  | reads (before after : List RowRead)
  /-- what was read is shown -/
  | shows (before : List RowRead) (row : Option SummaryProcess) (after : List RowRead)
  /-- the timer of the reveal task -/
  | reveals

section Runs

variable (codec : SummaryCodec) (meetingId : String) (reduceMotion : Bool)

/-- `generate_summary`, up to its first await -/
def generate (db : SummaryDatabase) (panel : SummaryPanel) : World where
  db := db
  panel := panel.clear
  stage := .configuring
  reads := []

/-- One of the activities goes on; the database returns no error. -/
inductive Step : Act → World → World → Prop
  | configured (w : World) (h : w.stage = .configuring) :
      Step (.configured true) w { w with stage := .running, panel := w.panel.startPoll }
  | unconfigured (w : World) (h : w.stage = .configuring) :
      Step (.configured false) w
        { w with
          stage := .failed
          panel := { w.panel with view := { w.panel.view with
            summaryPhase := .error "No model configured — set one up in Settings first." } } }
  | delta (w : World) (text : String) :
      Step (.delta text) w { w with panel := w.panel.onSummaryStream reduceMotion text }
  | completes (w : World) (env : SqlEnv) (markdown : String) (failedChunks : UInt64) (chunkCount : ℤ)
      (processingTime : Float) (db : SummaryDatabase) (h : w.stage = .running)
      (hdb : updateProcessCompleted env w.db meetingId
        (codec.toString (resultJson markdown failedChunks)) chunkCount processingTime = .ok db) :
      Step (.completes env markdown failedChunks chunkCount processingTime) w
        { w with db := db, stage := .succeeded markdown }
  | fails (w : World) (env : SqlEnv) (status error : String) (db : SummaryDatabase)
      (h : w.stage = .running) (hdb : restoreBackup env w.db meetingId status error = .ok db) :
      Step (.fails env status error) w { w with db := db, stage := .failed }
  | polls (w : World) (h : w.panel.polling = true) (going : Bool)
      (hgoing : going = true ↔ w.panel.view.summaryPhase = .generating) :
      Step .polls w
        { w with reads := w.reads ++ [.asked], panel := { w.panel with polling := going } }
  | reads (w : World) (before after : List RowRead) (h : w.reads = before ++ .asked :: after) :
      Step (.reads before after) w
        { w with reads := before ++ .loaded (getSummaryData w.db meetingId) :: after }
  | shows (w : World) (before after : List RowRead) (row : Option SummaryProcess)
      (h : w.reads = before ++ .loaded row :: after) :
      Step (.shows before row after) w
        { w with reads := before ++ after, panel := w.panel.refreshed codec (.ok row) }
  | reveals (w : World) (h : w.panel.revealing = true) :
      Step .reveals w { w with panel := w.panel.revealTick }

/-- **When the result gets through**: the run finds a row to store its summary in; as long as it goes on, a
read finds the row in progress; a row that is not in progress is shown when everything is revealed; and no
delta comes after that. -/
def Careful : Act → World → Prop
  | .completes .., w => (getSummaryData w.db meetingId).isSome = true
  | .reads _ _, w =>
    w.stage = .configuring ∨ w.stage = .running →
      SummaryPanel.isGenerating (.ok (getSummaryData w.db meetingId)) = true
  | .shows _ row _, w => SummaryPanel.isGenerating (.ok row) = false → w.panel.pending = []
  | .delta _, w => w.panel.view.summaryPhase = .generating
  | _, _ => True

/-- A step under this condition. -/
def CarefulStep (w w' : World) : Prop :=
  ∃ act, Step codec meetingId reduceMotion act w w' ∧ Careful meetingId act w

/-- What follows by such steps. -/
def Reaches : World → World → Prop := Relation.ReflTransGen (CarefulStep codec meetingId reduceMotion)

/-! ## What a step does -/

/-- A row that holds the summary of the run. -/
structure Holds (markdown : String) (process : SummaryProcess) : Prop where
  phase : SummaryPhase.ofProcess process = .idle
  markdown : SummaryPanel.markdownOf codec (.ok (some process)) = some markdown

/-- A page that shows a summary, all of it. -/
structure Shows (markdown : String) (panel : SummaryPanel) : Prop where
  view : panel.view = ⟨markdown, !markdown.isEmpty, .idle⟩
  text : panel.text = markdown
  pending : panel.pending = []

variable {codec meetingId reduceMotion}

theorem isGenerating_iff {process : SummaryProcess} :
    SummaryPanel.isGenerating (.ok (some process)) = true ↔
      SummaryPhase.ofProcess process = .generating := by
  rw [SummaryPanel.isGenerating]
  split <;> simp_all

theorem Holds.not_isGenerating {markdown : String} {process : SummaryProcess}
    (h : Holds codec markdown process) : SummaryPanel.isGenerating (.ok (some process)) = false := by
  rw [← Bool.not_eq_true, isGenerating_iff, h.phase]
  nofun

variable (codec) in
/-- A row in progress keeps the page polling. -/
theorem refreshed_of_isGenerating {row : Option SummaryProcess}
    (h : SummaryPanel.isGenerating (.ok row) = true) (panel : SummaryPanel) :
    (panel.refreshed codec (.ok row)).view.summaryPhase = .generating ∧
      (panel.refreshed codec (.ok row)).polling = true ∧
      (panel.refreshed codec (.ok row)).pending = panel.pending := by
  obtain _ | process := row
  · simp [SummaryPanel.isGenerating] at h
  · rw [SummaryPanel.refreshed, if_pos h]
    exact ⟨isGenerating_iff.mp h, rfl, rfl⟩

/-- The row of the run is shown as it is. -/
theorem Holds.refreshed {markdown : String} {process : SummaryProcess}
    (h : Holds codec markdown process) {panel : SummaryPanel} (hpending : panel.pending = []) :
    Shows markdown (panel.refreshed codec (.ok (some process))) ∧
      (panel.refreshed codec (.ok (some process))).polling = panel.polling := by
  have hmarkdown : (process.result.bind codec.fromStr).bind extractMarkdown = some markdown := h.markdown
  rw [SummaryPanel.refreshed, h.not_isGenerating]
  refine ⟨⟨?_, ?_, hpending⟩, rfl⟩
  · simp [refreshSummary, hmarkdown, h.phase]
  · simp [h.markdown]

theorem length_drain_lt {n : ℕ} (hn : 0 < n) {text : List Char} (h : text ≠ []) :
    (SummaryPanel.drain n text).2.length < text.length := by
  have hle : ∀ (m : ℕ) (rest : List Char), (SummaryPanel.drain m rest).2.length ≤ rest.length := by
    intro m rest
    induction rest generalizing m with
    | nil => cases m <;> simp [SummaryPanel.drain]
    | cons c rest ih =>
      cases m with
      | zero => simp [SummaryPanel.drain]
      | succ m => exact (ih _).trans (Nat.le_succ _)
  obtain ⟨c, rest, rfl⟩ := List.exists_cons_of_ne_nil h
  obtain ⟨m, rfl⟩ := Nat.exists_eq_succ_of_ne_zero hn.ne'
  exact Nat.lt_succ_of_le (hle (m + 1 - c.utf8Size) rest)

/-- A tick reveals something. -/
theorem length_revealTick_lt {panel : SummaryPanel} (h : panel.pending ≠ []) :
    panel.revealTick.pending.length < panel.pending.length := by
  apply length_drain_lt _ h
  have hlen : Utf8.len panel.pending ≠ 0 := fun hzero => h (Utf8.len_eq_zero.mp hzero)
  rw [SummaryPanel.charsPerTick]
  omega

theorem revealTick_of_nil {panel : SummaryPanel} (h : panel.pending = []) :
    panel.revealTick.view = panel.view ∧ panel.revealTick.text = panel.text ∧
      panel.revealTick.pending = [] := by
  simp [SummaryPanel.revealTick, h, SummaryPanel.charsPerTick, SummaryPanel.drain]

variable (reduceMotion) in
theorem phase_onSummaryStream (panel : SummaryPanel) (delta : String) :
    (panel.onSummaryStream reduceMotion delta).view.summaryPhase = panel.view.summaryPhase ∧
      (panel.onSummaryStream reduceMotion delta).polling = panel.polling := by
  rw [SummaryPanel.onSummaryStream]
  split_ifs <;> exact ⟨rfl, rfl⟩

theorem ofProcess_of_completed {process : SummaryProcess} (h : process.status = "completed") :
    SummaryPhase.ofProcess process = .idle := by
  have hlower : "completed".toLower = "completed" := by decide +kernel
  rw [SummaryPhase.ofProcess, h, hlower]
  rfl

/-- A run that finds a row stores its summary in it. -/
theorem holds_of_completed (hcodec : ∀ markdown failedChunks, codec.ReadsBack (resultJson markdown failedChunks))
    {env : SqlEnv} {db db' : SummaryDatabase} {markdown : String} {failedChunks : UInt64} {chunkCount : ℤ}
    {processingTime : Float} (hrow : (getSummaryData db meetingId).isSome = true)
    (h : updateProcessCompleted env db meetingId (codec.toString (resultJson markdown failedChunks))
      chunkCount processingTime = .ok db') :
    ∃ process, getSummaryData db' meetingId = some process ∧ Holds codec markdown process := by
  obtain ⟨row, hrow⟩ := Option.isSome_iff_exists.mp hrow
  rw [getSummaryData] at hrow
  rcases htext : codec.toString (resultJson markdown failedChunks) with _ | text
  · rw [htext, updateProcessCompleted] at h
    cases h
  · rw [htext, updateProcessCompleted] at h
    split_ifs at h
    obtain rfl := Except.ok.inj h
    have hupdated : ∀ set : SummaryProcess → SummaryProcess,
        getSummaryData (updateProcess db meetingId set) meetingId = some (set row) := by
      intro set
      rw [getSummaryData, updateProcess_self, hrow]
      rfl
    refine ⟨_, hupdated _, ofProcess_of_completed rfl, ?_⟩
    rw [SummaryPanel.markdownOf]
    simp [Except.toOption, hcodec markdown failedChunks text htext]

/-! ## What holds of every state -/

variable (codec meetingId)

/-- **The page is on course**, as long as the run has not failed. -/
structure OnCourse (w : World) : Prop where
  /-- the row has the summary once it is there -/
  row : ∀ markdown, w.stage = .succeeded markdown →
    ∃ process, getSummaryData w.db meetingId = some process ∧ Holds codec markdown process
  /-- what was read is a row in progress, or one with the summary -/
  reads : ∀ row, .loaded row ∈ w.reads → SummaryPanel.isGenerating (.ok row) = true ∨
    ∃ markdown process, w.stage = .succeeded markdown ∧ row = some process ∧ Holds codec markdown process
  /-- while a summary is generated, the page polls -/
  polls : w.panel.view.summaryPhase = .generating → w.stage = .configuring ∨ w.panel.polling = true
  /-- and after that it shows the summary -/
  shows : w.panel.view.summaryPhase ≠ .generating →
    ∃ markdown, w.stage = .succeeded markdown ∧ Shows markdown w.panel

variable {codec meetingId}

theorem onCourse_generate (db : SummaryDatabase) (panel : SummaryPanel) :
    OnCourse codec meetingId (generate db panel) := by
  refine ⟨?_, ?_, ?_, ?_⟩
  · intro markdown h
    cases h
  · intro row h
    cases h
  · intro _
    exact .inl rfl
  · intro h
    exact absurd rfl h

/-- Another panel that shows the same. -/
theorem Shows.congr {markdown : String} {panel panel' : SummaryPanel} (h : Shows markdown panel)
    (hview : panel'.view = panel.view) (htext : panel'.text = panel.text)
    (hpending : panel'.pending = panel.pending) : Shows markdown panel' :=
  ⟨hview.trans h.view, htext.trans h.text, hpending.trans h.pending⟩

/-- As long as the run has not succeeded, every row that was read is in progress. -/
theorem OnCourse.isGenerating_of_mem {w : World} (h : OnCourse codec meetingId w)
    (hnot : ∀ markdown, w.stage ≠ .succeeded markdown) {row : Option SummaryProcess}
    (hmem : .loaded row ∈ w.reads) : SummaryPanel.isGenerating (.ok row) = true := by
  obtain hgenerating | ⟨markdown, process, hsucceeded, -⟩ := h.reads row hmem
  · exact hgenerating
  · exact absurd hsucceeded (hnot markdown)

/-- As long as the run has not succeeded, the page says so. -/
theorem OnCourse.generating {w : World} (h : OnCourse codec meetingId w)
    (hnot : ∀ markdown, w.stage ≠ .succeeded markdown) : w.panel.view.summaryPhase = .generating := by
  by_contra hphase
  obtain ⟨markdown, hsucceeded, -⟩ := h.shows hphase
  exact hnot markdown hsucceeded

/-- The run stores its summary in the row that it finds. -/
theorem OnCourse.completed {w : World} (h : OnCourse codec meetingId w) (hstage : w.stage = .running)
    {db : SummaryDatabase} {markdown : String}
    (hrow : ∃ process, getSummaryData db meetingId = some process ∧ Holds codec markdown process) :
    OnCourse codec meetingId { w with db := db, stage := .succeeded markdown } := by
  have hnot : ∀ md, w.stage ≠ .succeeded md := fun md hsucceeded =>
    absurd (hstage.symm.trans hsucceeded) nofun
  refine ⟨?_, ?_, ?_, ?_⟩
  · rintro _ ⟨⟩
    exact hrow
  · intro row hmem
    exact .inl (h.isGenerating_of_mem hnot hmem)
  · intro hphase
    obtain hconfiguring | hpolling := h.polls hphase
    · exact absurd (hstage.symm.trans hconfiguring) nofun
    · exact .inr hpolling
  · intro hphase
    exact absurd (h.generating hnot) hphase

/-- A read finds the row in progress, or with the summary. -/
theorem OnCourse.read {w : World} (h : OnCourse codec meetingId w) {before after : List RowRead}
    (hreads : w.reads = before ++ .asked :: after) (hfailed : w.stage ≠ .failed)
    (hrow : w.stage = .configuring ∨ w.stage = .running →
      SummaryPanel.isGenerating (.ok (getSummaryData w.db meetingId)) = true) :
    OnCourse codec meetingId
      { w with reads := before ++ .loaded (getSummaryData w.db meetingId) :: after } := by
  refine ⟨h.row, ?_, h.polls, h.shows⟩
  intro row hmem
  have hsplit : row = getSummaryData w.db meetingId ∨ .loaded row ∈ w.reads := by
    simp only [List.mem_append, List.mem_cons, RowRead.loaded.injEq] at hmem
    rw [hreads]
    simp only [List.mem_append, List.mem_cons]
    tauto
  obtain rfl | hmem := hsplit
  · rcases hstage : w.stage with _ | _ | markdown | _
    · exact .inl (hrow (.inl hstage))
    · exact .inl (hrow (.inr hstage))
    · obtain ⟨process, hprocess, hholds⟩ := h.row markdown hstage
      exact .inr ⟨markdown, process, rfl, hprocess, hholds⟩
    · exact absurd hstage hfailed
  · exact h.reads row hmem

/-- A row is shown; one with the summary only when everything is revealed. -/
theorem OnCourse.shown {w : World} (h : OnCourse codec meetingId w) {before after : List RowRead}
    {row : Option SummaryProcess} (hreads : w.reads = before ++ .loaded row :: after)
    (hpending : SummaryPanel.isGenerating (.ok row) = false → w.panel.pending = []) :
    OnCourse codec meetingId
      { w with reads := before ++ after, panel := w.panel.refreshed codec (.ok row) } := by
  have hmem : .loaded row ∈ w.reads := by simp [hreads]
  have hrest : ∀ row', .loaded row' ∈ before ++ after → .loaded row' ∈ w.reads := by
    intro row' hmem'
    rw [hreads]
    simp only [List.mem_append, List.mem_cons] at hmem' ⊢
    tauto
  obtain hgenerating | ⟨markdown, process, hstage, rfl, hholds⟩ := h.reads row hmem
  · obtain ⟨hphase, hpolling, -⟩ := refreshed_of_isGenerating codec hgenerating w.panel
    refine ⟨h.row, fun row' hmem' => h.reads row' (hrest row' hmem'), fun _ => .inr hpolling, ?_⟩
    exact fun hnot => absurd hphase hnot
  · obtain ⟨hshows, hpolling⟩ := hholds.refreshed (hpending hholds.not_isGenerating)
    refine ⟨h.row, fun row' hmem' => h.reads row' (hrest row' hmem'), ?_, fun _ => ⟨_, hstage, hshows⟩⟩
    intro hphase
    rw [hshows.view] at hphase
    cases hphase

theorem onCourse_step
    (hcodec : ∀ markdown failedChunks, codec.ReadsBack (resultJson markdown failedChunks))
    {act : Act} {w w' : World} (hstep : Step codec meetingId reduceMotion act w w')
    (hcareful : Careful meetingId act w) (h : OnCourse codec meetingId w) :
    w'.stage = .failed ∨ OnCourse codec meetingId w' := by
  cases hstep with
  | configured w hstage =>
    right
    have hnot : ∀ markdown, w.stage ≠ .succeeded markdown := fun markdown hsucceeded =>
      absurd (hstage.symm.trans hsucceeded) nofun
    refine ⟨nofun, ?_, fun _ => .inr rfl, fun hphase => absurd (h.generating hnot) hphase⟩
    intro row hmem
    exact .inl (h.isGenerating_of_mem hnot hmem)
  | unconfigured w hstage => exact .inl rfl
  | delta w text =>
    right
    obtain ⟨hphase, hpolling⟩ := phase_onSummaryStream reduceMotion w.panel text
    refine ⟨h.row, h.reads, ?_, ?_⟩
    · intro _
      rw [hpolling]
      exact h.polls hcareful
    · intro hnot
      exact absurd (hphase.trans hcareful) hnot
  | completes w env markdown failedChunks chunkCount processingTime db hstage hdb =>
    exact .inr (h.completed hstage (holds_of_completed hcodec hcareful hdb))
  | fails => exact .inl rfl
  | polls w hpolling going hgoing =>
    right
    refine ⟨h.row, ?_, ?_, ?_⟩
    · intro row hmem
      exact h.reads row (by simpa using hmem)
    · intro hphase
      exact .inr (hgoing.mpr hphase)
    · intro hphase
      obtain ⟨markdown, hsucceeded, hshows⟩ := h.shows hphase
      exact ⟨markdown, hsucceeded, hshows.congr rfl rfl rfl⟩
  | reads w before after hreads =>
    by_cases hfailed : w.stage = .failed
    · exact .inl hfailed
    · exact .inr (h.read hreads hfailed hcareful)
  | shows w before after row hreads => exact .inr (h.shown hreads hcareful)
  | reveals w hrevealing =>
    right
    refine ⟨h.row, h.reads, h.polls, ?_⟩
    intro hphase
    obtain ⟨markdown, hstage, hshows⟩ := h.shows hphase
    obtain ⟨hview, htext, hpending⟩ := revealTick_of_nil hshows.pending
    exact ⟨markdown, hstage, hshows.congr hview htext (hpending.trans hshows.pending.symm)⟩

/-- A run that has failed stays so. -/
theorem failed_step {act : Act} {w w' : World} (hstep : Step codec meetingId reduceMotion act w w')
    (h : w.stage = .failed) : w'.stage = .failed := by
  cases hstep with
  | configured w hstage => exact absurd (h.symm.trans hstage) nofun
  | unconfigured w hstage => rfl
  | completes w env markdown failedChunks chunkCount processingTime db hstage hdb =>
    exact absurd (h.symm.trans hstage) nofun
  | fails => rfl
  | _ => exact h

theorem onCourse_run
    (hcodec : ∀ markdown failedChunks, codec.ReadsBack (resultJson markdown failedChunks))
    {w w' : World} (hreach : Reaches codec meetingId reduceMotion w w')
    (h : OnCourse codec meetingId w) : w'.stage = .failed ∨ OnCourse codec meetingId w' := by
  induction hreach with
  | refl => exact .inr h
  | tail _ hcareful ih =>
    obtain ⟨act, hstep, hcareful⟩ := hcareful
    obtain hfailed | hcourse := ih
    · exact .inl (failed_step hstep hfailed)
    · exact onCourse_step hcodec hstep hcareful hcourse

theorem OnCourse.of_reaches
    (hcodec : ∀ markdown failedChunks, codec.ReadsBack (resultJson markdown failedChunks))
    {w w' : World} {markdown : String} (h : OnCourse codec meetingId w)
    (hreach : Reaches codec meetingId reduceMotion w w') (hstage : w'.stage = .succeeded markdown) :
    OnCourse codec meetingId w' := by
  obtain hfailed | hcourse := onCourse_run hcodec hreach h
  · exact absurd (hstage.symm.trans hfailed) nofun
  · exact hcourse

/-! ## It settles -/

/-- Nothing is left to be revealed, and neither the poll nor a read of it is under way. -/
structure Settled (w : World) : Prop where
  pending : w.panel.pending = []
  polling : w.panel.polling = false
  reads : w.reads = []

/-- A settled page that is on course shows the summary. -/
theorem OnCourse.shows_of_settled {w : World} {markdown : String} (h : OnCourse codec meetingId w)
    (hstage : w.stage = .succeeded markdown) (hsettled : Settled w) : Shows markdown w.panel := by
  have hphase : w.panel.view.summaryPhase ≠ .generating := by
    intro hgenerating
    obtain hconfiguring | hpolling := h.polls hgenerating
    · exact absurd (hstage.symm.trans hconfiguring) nofun
    · exact absurd (hsettled.polling.symm.trans hpolling) nofun
  obtain ⟨md, hsucceeded, hshows⟩ := h.shows hphase
  obtain rfl := RunStage.succeeded.inj (hsucceeded.symm.trans hstage)
  exact hshows

/-- The reveal task gets to the end. -/
theorem exists_revealed (w : World) :
    ∃ w', Reaches codec meetingId reduceMotion w w' ∧ w'.panel.pending = [] ∧ w'.stage = w.stage := by
  induction hlen : w.panel.pending.length using Nat.strong_induction_on generalizing w with
  | _ n ih =>
    by_cases hpending : w.panel.pending = []
    · exact ⟨w, .refl, hpending, rfl⟩
    · have hless := length_revealTick_lt hpending
      rw [hlen] at hless
      obtain ⟨w', hreach, hnil, hstage⟩ := ih _ hless { w with panel := w.panel.revealTick } rfl
      refine ⟨w', .head ⟨.reveals, .reveals w ?_, trivial⟩ hreach, hnil, hstage⟩
      exact w.panel.revealing_of_pending hpending

theorem pending_refreshed (panel : SummaryPanel) (loaded : Except String (Option SummaryProcess)) :
    (panel.refreshed codec loaded).pending = panel.pending := by
  rw [SummaryPanel.refreshed]
  split_ifs <;> rfl

/-- What was read is shown. -/
theorem exists_shown {w : World} {before after : List RowRead} {row : Option SummaryProcess}
    (hreads : w.reads = before ++ .loaded row :: after) (hpending : w.panel.pending = []) :
    CarefulStep codec meetingId reduceMotion w
      { w with reads := before ++ after, panel := w.panel.refreshed codec (.ok row) } :=
  ⟨.shows before row after, .shows w before after row hreads, fun _ => hpending⟩

/-- After the run, the row can be read at any time. -/
theorem exists_loaded {w : World} {before after : List RowRead} {markdown : String}
    (hreads : w.reads = before ++ .asked :: after) (hstage : w.stage = .succeeded markdown) :
    CarefulStep codec meetingId reduceMotion w
      { w with reads := before ++ .loaded (getSummaryData w.db meetingId) :: after } := by
  refine ⟨.reads before after, .reads w before after hreads, ?_⟩
  rintro (h | h)
  · exact absurd (hstage.symm.trans h) nofun
  · exact absurd (hstage.symm.trans h) nofun

/-- The reads that are under way come to an end. -/
theorem exists_read {w : World} {markdown : String} (hpending : w.panel.pending = [])
    (hstage : w.stage = .succeeded markdown) :
    ∃ w', Reaches codec meetingId reduceMotion w w' ∧ w'.reads = [] ∧ w'.panel.pending = [] ∧
      w'.stage = w.stage := by
  induction hreads : w.reads generalizing w with
  | nil => exact ⟨w, .refl, hreads, hpending, rfl⟩
  | cons read rest ih =>
    have hloaded : ∃ w₁ row, Reaches codec meetingId reduceMotion w w₁ ∧
        w₁.reads = [] ++ .loaded row :: rest ∧ w₁.panel = w.panel ∧ w₁.stage = w.stage := by
      cases read with
      | asked =>
        have hasked : w.reads = [] ++ .asked :: rest := hreads
        exact ⟨_, _, .single (exists_loaded hasked hstage), rfl, rfl, rfl⟩
      | loaded row => exact ⟨w, row, .refl, hreads, rfl, rfl⟩
    obtain ⟨w₁, row, hreach, hreads₁, hpanel, hstage₁⟩ := hloaded
    have hpending₁ : w₁.panel.pending = [] := by rw [hpanel, hpending]
    obtain ⟨w', hreach', hnil, hpending', hstage'⟩ :=
      @ih { w₁ with reads := [] ++ rest, panel := w₁.panel.refreshed codec (.ok row) }
        ((pending_refreshed w₁.panel _).trans hpending₁) (hstage₁.trans hstage) rfl
    exact ⟨w', (hreach.tail (exists_shown hreads₁ hpending₁)).trans hreach', hnil, hpending',
      hstage'.trans hstage₁⟩

/-- A tick of the poll, once the run is over: the summary is read and shown. -/
theorem exists_polled {w : World} {markdown : String} (hcourse : OnCourse codec meetingId w)
    (hstage : w.stage = .succeeded markdown) (hpending : w.panel.pending = []) (hreads : w.reads = [])
    (hpolling : w.panel.polling = true) :
    ∃ w', Reaches codec meetingId reduceMotion w w' ∧ w'.stage = w.stage ∧ w'.panel.pending = [] ∧
      w'.reads = [] ∧ w'.panel.view.summaryPhase ≠ .generating ∧
      (w.panel.view.summaryPhase ≠ .generating → w'.panel.polling = false) := by
  obtain ⟨going, hgoing⟩ : ∃ going : Bool, going = true ↔ w.panel.view.summaryPhase = .generating := by
    by_cases h : w.panel.view.summaryPhase = .generating
    · exact ⟨true, by simp [h]⟩
    · exact ⟨false, by simp [h]⟩
  obtain ⟨process, hrow, hholds⟩ := hcourse.row markdown hstage
  let asked : World := { w with reads := [] ++ .asked :: [], panel := { w.panel with polling := going } }
  let loaded : World := { asked with reads := [] ++ .loaded (getSummaryData w.db meetingId) :: [] }
  let shown : World := { loaded with
    reads := [] ++ [], panel := loaded.panel.refreshed codec (.ok (getSummaryData w.db meetingId)) }
  have hasked : CarefulStep codec meetingId reduceMotion w asked := by
    refine ⟨.polls, ?_, trivial⟩
    have hpolls := @Step.polls codec meetingId reduceMotion w hpolling going hgoing
    rwa [hreads] at hpolls
  have hloaded : CarefulStep codec meetingId reduceMotion asked loaded := exists_loaded rfl hstage
  have hshown : CarefulStep codec meetingId reduceMotion loaded shown := exists_shown rfl hpending
  have hfinal : Shows markdown shown.panel ∧ shown.panel.polling = going := by
    have hrefreshed := hholds.refreshed (show loaded.panel.pending = [] from hpending)
    rwa [← hrow] at hrefreshed
  obtain ⟨hshows, hsame⟩ := hfinal
  refine ⟨shown, ((Relation.ReflTransGen.single hasked).tail hloaded).tail hshown, rfl,
    hshows.pending, rfl, ?_, ?_⟩
  · rw [hshows.view]
    nofun
  · intro hphase
    rw [hsame, ← Bool.not_eq_true, hgoing]
    exact hphase

/-- A page whose run has succeeded settles, by the polls and the reveal task alone. -/
theorem exists_settled
    (hcodec : ∀ markdown failedChunks, codec.ReadsBack (resultJson markdown failedChunks)) {w : World}
    {markdown : String} (hcourse : OnCourse codec meetingId w)
    (hstage : w.stage = .succeeded markdown) :
    ∃ w', Reaches codec meetingId reduceMotion w w' ∧ w'.stage = w.stage ∧ Settled w' := by
  obtain ⟨w₁, hreach₁, hpending₁, hstage₁⟩ : ∃ w', Reaches codec meetingId reduceMotion w w' ∧ _ :=
    exists_revealed w
  obtain ⟨w₂, hreach₂, hreads₂, hpending₂, hstage₂⟩ := exists_read hpending₁ (hstage₁.trans hstage)
  have hreach₂ := hreach₁.trans hreach₂
  have hstage₂ := hstage₂.trans hstage₁
  -- one tick of the poll brings the summary to the page, the next one ends the poll
  have hpoll : ∀ {v : World}, Reaches codec meetingId reduceMotion w v → v.stage = w.stage →
      v.panel.pending = [] → v.reads = [] → v.panel.view.summaryPhase ≠ .generating →
      ∃ w', Reaches codec meetingId reduceMotion w w' ∧ w'.stage = w.stage ∧ Settled w' := by
    intro v hreach hv hpending hreads hphase
    rcases hpolling : v.panel.polling with _ | _
    · exact ⟨v, hreach, hv, hpending, hpolling, hreads⟩
    · have hcourse' := hcourse.of_reaches hcodec hreach (hv.trans hstage)
      obtain ⟨w', hreach', hstage', hpending', hreads', -, hend⟩ :=
        exists_polled hcourse' (hv.trans hstage) hpending hreads hpolling
      exact ⟨w', hreach.trans hreach', hstage'.trans hv, hpending', hend hphase, hreads'⟩
  by_cases hphase : w₂.panel.view.summaryPhase = .generating
  · have hcourse₂ := hcourse.of_reaches hcodec hreach₂ (hstage₂.trans hstage)
    have hpolling : w₂.panel.polling = true := by
      obtain hconfiguring | hpolling := hcourse₂.polls hphase
      · exact absurd ((hstage₂.trans hstage).symm.trans hconfiguring) nofun
      · exact hpolling
    obtain ⟨w₃, hreach₃, hstage₃, hpending₃, hreads₃, hphase₃, -⟩ :=
      exists_polled hcourse₂ (hstage₂.trans hstage) hpending₂ hreads₂ hpolling
    exact hpoll (hreach₂.trans hreach₃) (hstage₃.trans hstage₂) hpending₃ hreads₃ hphase₃
  · exact hpoll hreach₂ hstage₂ hpending₂ hreads₂ hphase

/-- **A finished summary reaches the page**: once a run has succeeded the row has its markdown; a settled
page shows it, with nothing going on; and the page settles. -/
theorem reaches_page
    (hcodec : ∀ markdown failedChunks, codec.ReadsBack (resultJson markdown failedChunks))
    {db : SummaryDatabase} {panel : SummaryPanel} {w : World} {markdown : String}
    (hreach : Reaches codec meetingId reduceMotion (generate db panel) w)
    (hstage : w.stage = .succeeded markdown) :
    SummaryPanel.markdownOf codec (.ok (getSummaryData w.db meetingId)) = some markdown ∧
      (Settled w → Shows markdown w.panel) ∧
      ∃ w', Reaches codec meetingId reduceMotion w w' ∧ Settled w' ∧ Shows markdown w'.panel := by
  have hcourse := (onCourse_generate db panel).of_reaches hcodec hreach hstage
  refine ⟨?_, hcourse.shows_of_settled hstage, ?_⟩
  · obtain ⟨process, hrow, hholds⟩ := hcourse.row markdown hstage
    rw [hrow]
    exact hholds.markdown
  · obtain ⟨w', hreach', hstage', hsettled⟩ := exists_settled hcodec hcourse hstage
    have hcourse' := hcourse.of_reaches hcodec hreach' (hstage'.trans hstage)
    exact ⟨w', hreach', hsettled, hcourse'.shows_of_settled (hstage'.trans hstage) hsettled⟩

end Runs

/-! ## A row that is there, and one that is not -/

/-- The codec of the one document that has the summary `Notes`; it prints no other. -/
def onlyNotes : SummaryCodec where
  toString value :=
    match value with
    | .object [("markdown", .string "Notes")] => some "\x7b\"markdown\":\"Notes\"\x7d"
    | _ => none
  fromStr text :=
    if text = "\x7b\"markdown\":\"Notes\"\x7d" then some (summaryJson "Notes") else none

theorem readsBack_onlyNotes (value : Json.Value) : onlyNotes.ReadsBack value := by
  intro text htext
  rw [onlyNotes] at htext
  simp only at htext
  split at htext
  · obtain rfl := Option.some.inj htext
    rfl
  · cases htext

/-- A page that shows no summary. -/
def emptyPanel : SummaryPanel := ⟨⟨"", false, .idle⟩, "", [], false, false, nofun⟩

/-- A meeting, with the row of a summary that is generated, if there is one. -/
def meetingWith (row : Option SummaryProcess) : SummaryDatabase :=
  ⟨fun _ => some "2026-01-01T09:00:00+00:00", fun _ => row⟩

/-- The row that `create_or_reset_process` makes. -/
def pendingRow : SummaryProcess :=
  ⟨"PENDING", "2026-01-01T09:00:00+00:00", "2026-01-01T09:00:00+00:00", none, none,
    some "2026-01-01T09:00:00+00:00", none, 0, 0, none, none⟩

/-- The settings are there, and the run succeeds. -/
def succeededRun (row : Option SummaryProcess) : World :=
  { generate (meetingWith row) emptyPanel with
    panel := emptyPanel.clear.startPoll
    stage := .succeeded "Notes"
    db := updateProcess (meetingWith row) "meeting-1" fun process =>
      { process with
        status := "completed", result := some "\x7b\"markdown\":\"Notes\"\x7d",
        updatedAt := (calmCall .cancelled).env.now 0, endTime := some ((calmCall .cancelled).env.now 0),
        chunkCount := 1, processingTime := 0, error := none, resultBackup := none,
        resultBackupTimestamp := none } }

theorem step_completes (row : Option SummaryProcess) :
    Step onlyNotes "meeting-1" false (.completes (calmCall .cancelled).env "Notes" 0 1 0)
      { generate (meetingWith row) emptyPanel with
        stage := .running, panel := emptyPanel.clear.startPoll }
      (succeededRun row) := by
  apply Step.completes _ _ _ _ _ _ _ rfl
  rfl

/-- With the row it reaches the page. -/
theorem reaches_page_pending :
    ∃ w, Reaches onlyNotes "meeting-1" false (succeededRun (some pendingRow)) w ∧ Settled w ∧
      Shows "Notes" w.panel := by
  have hreach : Reaches onlyNotes "meeting-1" false
      (generate (meetingWith (some pendingRow)) emptyPanel) (succeededRun (some pendingRow)) := by
    refine (Relation.ReflTransGen.single ?_).tail ⟨_, step_completes (some pendingRow), rfl⟩
    exact ⟨.configured true, .configured _ rfl, trivial⟩
  exact (reaches_page (fun _ _ => readsBack_onlyNotes _) hreach rfl).2.2

/-- Without it the summary of the run is stored nowhere. -/
theorem not_read_withoutRow :
    ¬∀ w markdown,
      Relation.ReflTransGen (fun v v' => ∃ act, Step onlyNotes "meeting-1" false act v v')
        (generate (meetingWith none) emptyPanel) w →
      w.stage = .succeeded markdown → w.panel.pending = [] →
      SummaryPanel.markdownOf onlyNotes (.ok (getSummaryData w.db "meeting-1")) = some markdown := by
  intro hread
  have hreach : Relation.ReflTransGen (fun v v' => ∃ act, Step onlyNotes "meeting-1" false act v v')
      (generate (meetingWith none) emptyPanel) (succeededRun none) := by
    refine (Relation.ReflTransGen.single ?_).tail ⟨_, step_completes none⟩
    exact ⟨.configured true, .configured _ rfl⟩
  cases hread _ "Notes" hreach rfl rfl

end MeetingPage

end MeetilyLocal
