import MeetilyLocal.Calendar.Reminders
import MeetilyLocal.Database.ActionItems
import MeetilyLocal.Database.TranscriptOrder
import MeetilyLocal.Meeting.SummaryPanel

/-!
# The page of a meeting

The state of `MeetingView` (`views/meeting/mod.rs`), its actions, and what their tasks do to it when they
are done. One view shows one meeting after another: "async completions compare [`generation`] to the current
value before applying". A completion that does so and no more is `guarded`.
-/

namespace MeetilyLocal

namespace MeetingPage

open ActionItemsRepository MeetingsRepository

/-! ## The state -/

/-- A row of `meeting_notes`. -/
structure MeetingNote : Type where
  /-- primary key -/
  id : String
  /-- the meeting it is of -/
  meetingId : String
  /-- what it says -/
  body : String
  /-- `manual` or `agent` -/
  source : String
  /-- when it was made -/
  createdAt : String

/-- `SpeakerEditState`, less what the user picks and where it is shown -/
structure SpeakerEdit : Type where
  /-- the segment and the label -/
  key : String
  /-- the profile of the speaker -/
  voiceProfileId : Option String
  /-- what stands in the field for the address -/
  email : String
  /-- the profiles to merge with -/
  profiles : List VoiceProfile
  /-- they are loaded -/
  profilesLoading : Bool
  /-- what was typed is saved -/
  saving : Bool
  /-- what went wrong -/
  error : Option String

/-- `MeetingView`, less the templates and what is typed -/
structure Page : Type where
  /-- bumped on every `load` -/
  generation : ℕ
  meetingId : Option String
  title : String
  createdAt : Option ℤ
  meetingFolderPath : Option String
  transcripts : List MeetingTranscript
  transcriptsLoading : Bool
  loadError : Option String
  summary : SummaryPanel
  editingSummary : Bool
  savingSummary : Bool
  retranscribeOpen : Bool
  retranscribeModels : List String
  retranscribeModelIndex : Option ℕ
  retranscribeInProgress : Bool
  retranscribeProgressPct : ℕ
  retranscribeProgressMessage : String
  retranscribeError : Option String
  calendarEvent : Option CalendarEvent
  calendarLoading : Bool
  calendarMutating : Bool
  calendarPickerOpen : Bool
  calendarPickerEvents : Option (List CalendarEvent)
  calendarPickerError : Option String
  speakerEdit : Option SpeakerEdit
  playingSegment : Option String
  loadingSegment : Option String
  showConfidence : Bool
  notes : List MeetingNote
  notesComposing : Bool
  notesSaving : Bool
  actionItems : List ActionItem
  actionItemsLoading : Bool
  aiEditingId : Option String
  aiAdding : Bool
  aiExtracting : Bool

/-- `MeetingView::new` -/
def Page.new : Page where
  generation := 0
  meetingId := none
  title := ""
  createdAt := none
  meetingFolderPath := none
  transcripts := []
  transcriptsLoading := false
  loadError := none
  summary := emptyPanel
  editingSummary := false
  savingSummary := false
  retranscribeOpen := false
  retranscribeModels := []
  retranscribeModelIndex := none
  retranscribeInProgress := false
  retranscribeProgressPct := 0
  retranscribeProgressMessage := ""
  retranscribeError := none
  calendarEvent := none
  calendarLoading := false
  calendarMutating := false
  calendarPickerOpen := false
  calendarPickerEvents := none
  calendarPickerError := none
  speakerEdit := none
  playingSegment := none
  loadingSegment := none
  showConfidence := false
  notes := []
  notesComposing := false
  notesSaving := false
  actionItems := []
  actionItemsLoading := false
  aiEditingId := none
  aiAdding := false
  aiExtracting := false

/-- What a task of the page does, with what it has taken along. -/
inductive Job : Type where
  /-- the meeting and its transcript -/
  | meeting
  /-- the row of the summary -/
  | summary
  /-- the event of the meeting -/
  | calendarEvent
  | notes
  | actionItems
  | confidence
  /-- the settings of the model, for a summary -/
  | config
  | saveSummary (markdown : String)
  | retranscribeModels
  /-- the transcript alone -/
  | transcript
  | retranscription (meetingId : String)
  /-- the events around a time -/
  | pickerEvents (anchor : ℤ)
  | pickEvent
  | profiles (key : String)
  | saveSpeaker (key : String)
  | clip (segment : String)
  | saveNote
  | deleteNote (removed : Option MeetingNote)
  /-- the status or the text of an item, or that it is gone -/
  | changeItem
  | newItem
  | extract

/-- A task that is not done, and the load that it belongs to. -/
structure Pending : Type where
  generation : ℕ
  job : Job

/-- The page and its tasks. -/
structure PageWorld : Type where
  page : Page
  /-- whether there is a database -/
  pool : Bool
  /-- whether the page is shown -/
  shown : Bool
  pending : List Pending

/-- How what is stored is read. -/
structure PageFormats : Type where
  codec : SummaryCodec
  /-- `DateTime::parse_from_rfc3339` -/
  parseFromRfc3339 : String → Option ℤ

namespace PageWorld

/-- The page changes. -/
def update (w : PageWorld) (f : Page → Page) : PageWorld := { w with page := f w.page }

/-- `cx.spawn`, for a task of the present load -/
def spawn (w : PageWorld) (job : Job) : PageWorld :=
  { w with pending := w.pending ++ [⟨w.page.generation, job⟩] }

/-- A task that reads of the database, if there is one and a meeting. -/
def spawnRead (w : PageWorld) (job : Job) : PageWorld :=
  if w.pool && w.page.meetingId.isSome then w.spawn job else w

/-! ## Loading -/

/-- `load_calendar_event` -/
def loadCalendarEvent (w : PageWorld) : PageWorld :=
  if w.pool && w.page.meetingId.isSome then w.spawn .calendarEvent
  else w.update ({ · with calendarLoading := false })

/-- `load_action_items` -/
def loadActionItems (w : PageWorld) : PageWorld :=
  if w.pool && w.page.meetingId.isSome then w.spawn .actionItems
  else w.update ({ · with actionItemsLoading := false })

/-- What `load` resets. -/
def resetPage (id : String) (p : Page) : Page :=
  { p with
    generation := p.generation + 1
    meetingId := some id
    title := ""
    createdAt := none
    meetingFolderPath := none
    transcripts := []
    transcriptsLoading := true
    loadError := none
    summary := { emptyPanel with view := ⟨"", false, .loading⟩ }
    editingSummary := false
    savingSummary := false
    retranscribeOpen := false
    retranscribeInProgress := false
    retranscribeError := none
    retranscribeProgressPct := 0
    retranscribeProgressMessage := ""
    calendarEvent := none
    calendarLoading := true
    calendarPickerOpen := false
    calendarPickerEvents := none
    calendarPickerError := none
    speakerEdit := none
    playingSegment := none
    loadingSegment := none
    notes := []
    notesComposing := false
    notesSaving := false
    actionItems := []
    actionItemsLoading := true
    aiEditingId := none
    aiAdding := false
    aiExtracting := false }

/-- `load` -/
def load (id : String) (w : PageWorld) : PageWorld :=
  let w := { w.update (resetPage id) with shown := true }
  if w.pool then
    ((((w.spawn .meeting).spawnRead .summary).loadCalendarEvent.spawnRead .notes).loadActionItems.spawn
      .confidence)
  else
    w.update ({ · with
      loadError := some "No database — complete onboarding in the Tauri app first."
      transcriptsLoading := false })

/-! ## Actions -/

/-- `generate_summary`, for a meeting with a transcript -/
def generateSummary (w : PageWorld) : PageWorld :=
  if w.pool && w.page.meetingId.isSome && w.page.transcripts ≠ [] then
    (w.update fun p => { p with summary := p.summary.clear }).spawn .config
  else w

/-- `start_edit_summary` and `cancel_edit_summary` -/
def editSummary (editing : Bool) (w : PageWorld) : PageWorld :=
  w.update ({ · with editingSummary := editing })

/-- `save_summary`, of what is in the editor -/
def saveSummary (markdown : String) (w : PageWorld) : PageWorld :=
  if w.pool && w.page.meetingId.isSome then
    (w.update ({ · with savingSummary := true })).spawn (.saveSummary markdown)
  else w

/-- `open_retranscribe` -/
def openRetranscribe (w : PageWorld) : PageWorld :=
  if w.page.meetingFolderPath.isNone then w
  else
    let w := w.update ({ · with retranscribeOpen := true, retranscribeError := none })
    if w.page.retranscribeModels ≠ [] then w else w.spawn .retranscribeModels

/-- `close_retranscribe` -/
def closeRetranscribe (w : PageWorld) : PageWorld := w.update ({ · with retranscribeOpen := false })

/-- `cycle_retranscribe_model` -/
def cycleRetranscribeModel (w : PageWorld) : PageWorld :=
  if w.page.retranscribeModels = [] then w
  else
    w.update fun p => { p with
      retranscribeModelIndex :=
        some ((p.retranscribeModelIndex.map fun i => (i + 1) % p.retranscribeModels.length).getD 0) }

/-- `start_retranscribe`, unless one is in progress -/
def startRetranscribe (inProgress : Bool) (w : PageWorld) : PageWorld :=
  match w.page.meetingId, w.page.meetingFolderPath with
  | some id, some _ =>
    if inProgress then w
    else
      (w.update ({ · with
        retranscribeInProgress := true, retranscribeError := none, retranscribeProgressPct := 0,
        retranscribeProgressMessage := "Starting…" })).spawn (.retranscription id)
  | _, _ => w

/-- `open_calendar_picker`, at a time -/
def openCalendarPicker (now : ℤ) (w : PageWorld) : PageWorld :=
  let w := w.update ({ · with
    calendarPickerOpen := true, calendarPickerEvents := none, calendarPickerError := none })
  if w.pool then w.spawn (.pickerEvents (w.page.createdAt.getD now))
  else w.update ({ · with calendarPickerError := some "No database — complete onboarding first." })

/-- `close_calendar_picker` -/
def closeCalendarPicker (w : PageWorld) : PageWorld :=
  w.update ({ · with calendarPickerOpen := false })

/-- `pick_calendar_event` and `unlink_calendar_event` -/
def pickCalendarEvent (w : PageWorld) : PageWorld :=
  if w.pool && w.page.meetingId.isSome then
    (w.update ({ · with calendarMutating := true })).spawn .pickEvent
  else w

/-- `toggle_speaker_edit` -/
def toggleSpeakerEdit (key : String) (voiceProfileId : Option String) (w : PageWorld) : PageWorld :=
  if w.page.speakerEdit.any (·.key == key) then w.update ({ · with speakerEdit := none })
  else
    let w := w.update ({ · with speakerEdit := some ⟨key, voiceProfileId, "", [], true, false, none⟩ })
    if w.pool then w.spawn (.profiles key) else w

/-- `close_speaker_edit` -/
def closeSpeakerEdit (w : PageWorld) : PageWorld := w.update ({ · with speakerEdit := none })

/-- `save_speaker_edit`, with the profile to merge with and the name, trimmed -/
def saveSpeakerEdit (mergeTarget : Option String) (name : String) (w : PageWorld) : PageWorld :=
  match w.page.speakerEdit with
  | none => w
  | some edit =>
    if w.pool && w.page.meetingId.isSome && (mergeTarget.isSome || name ≠ "") then
      (w.update ({ · with speakerEdit := some { edit with saving := true, error := none } })).spawn
        (.saveSpeaker edit.key)
    else w

/-- `stop_segment_playback` and `on_segment_playback_ended` -/
def stopSegmentPlayback (w : PageWorld) : PageWorld :=
  w.update ({ · with playingSegment := none, loadingSegment := none })

/-- `toggle_segment_playback` and `play_segment` -/
def toggleSegmentPlayback (segment : String) (w : PageWorld) : PageWorld :=
  if w.page.playingSegment = some segment ∨ w.page.loadingSegment = some segment then
    w.stopSegmentPlayback
  else if w.pool && w.page.meetingId.isSome then
    (w.update ({ · with playingSegment := none, loadingSegment := some segment })).spawn (.clip segment)
  else w

/-- `open_note_composer` and `cancel_note_composer` -/
def composeNote (composing : Bool) (w : PageWorld) : PageWorld :=
  w.update ({ · with notesComposing := composing })

/-- `save_note`, of what is typed, trimmed -/
def saveNote (body : String) (w : PageWorld) : PageWorld :=
  if !(w.pool && w.page.meetingId.isSome) then w
  else if body = "" || w.page.notesSaving then w
  else (w.update ({ · with notesSaving := true })).spawn .saveNote

/-- `delete_note` -/
def deleteNote (id : String) (w : PageWorld) : PageWorld :=
  if w.pool then
    let removed := w.page.notes.find? (·.id == id)
    (w.update fun p => { p with notes := p.notes.eraseP (·.id == id) }).spawn (.deleteNote removed)
  else w

/-- `iter_mut().find(..)`: the first one that is so changes -/
def changeFirst {α : Type} (p : α → Bool) (f : α → α) : List α → List α
  | [] => []
  | x :: xs => if p x then f x :: xs else x :: changeFirst p f xs

/-- `toggle_action_item_status`, `save_action_item_edit` and `delete_action_item`: the items are changed
before the database is. -/
def changeItems (change : List ActionItem → List ActionItem) (w : PageWorld) : PageWorld :=
  if w.pool then (w.update fun p => { p with actionItems := change p.actionItems }).spawn .changeItem
  else w

/-- `toggle_action_item_status` -/
def toggleActionItemStatus (id : String) (currentlyDone : Bool) (w : PageWorld) : PageWorld :=
  w.changeItems
    (changeFirst (·.id = id) ({ · with status := if currentlyDone then "open" else "done" }))

/-- `start_action_item_edit` and `cancel_action_item_edit` -/
def editActionItem (id : Option String) (w : PageWorld) : PageWorld :=
  w.update ({ · with aiEditingId := id })

/-- `save_action_item_edit`, of what is typed, trimmed -/
def saveActionItemEdit (text : String) (w : PageWorld) : PageWorld :=
  match w.page.aiEditingId with
  | none => w
  | some id =>
    let w := w.update ({ · with aiEditingId := none })
    if text = "" then w
    else w.changeItems (changeFirst (·.id = id) ({ · with text := text }))

/-- `delete_action_item` -/
def deleteActionItem (id : String) (w : PageWorld) : PageWorld :=
  w.changeItems fun items => items.filter (·.id ≠ id)

/-- `open_action_item_composer` and `cancel_action_item_composer` -/
def composeActionItem (adding : Bool) (w : PageWorld) : PageWorld :=
  w.update ({ · with aiAdding := adding })

/-- `save_new_action_item`, of what is typed, trimmed -/
def saveNewActionItem (text : String) (w : PageWorld) : PageWorld :=
  if w.pool && w.page.meetingId.isSome && text ≠ "" then
    (w.update ({ · with aiAdding := false })).spawn .newItem
  else w

/-- `extract_action_items` -/
def extractActionItems (w : PageWorld) : PageWorld :=
  if w.pool && w.page.meetingId.isSome && !w.page.aiExtracting then
    (w.update ({ · with aiExtracting := true })).spawn .extract
  else w

/-! ## What the tasks do when they are done -/

/-- `if this.generation != generation { return; }` -/
def guarded (generation : ℕ) (f : PageWorld → PageWorld) (w : PageWorld) : PageWorld :=
  if w.page.generation ≠ generation then w else f w

/-- `reload_transcript` -/
def reloadTranscript (w : PageWorld) : PageWorld := w.spawnRead .transcript

/-- The completion of `load`, `apply_meeting_details` included. -/
def loadDone (formats : PageFormats) (details : Except String (Option MeetingDetails))
    (metadata : Option (Option String)) (w : PageWorld) : PageWorld :=
  w.update fun p =>
    let p := { p with transcriptsLoading := false }
    let p :=
      match details with
      | .ok (some details) =>
        { p with
          title := details.title
          createdAt := formats.parseFromRfc3339 details.createdAt
          transcripts := details.transcripts }
      | .ok none => { p with loadError := some "Meeting not found" }
      | .error e => { p with loadError := some ("Failed to load meeting: " ++ e) }
    { p with meetingFolderPath := metadata.getD p.meetingFolderPath }

/-- The completion of `refresh_summary`. -/
def refreshSummaryDone (formats : PageFormats) (loaded : Except String (Option SummaryProcess))
    (w : PageWorld) : PageWorld :=
  w.update fun p => { p with summary := p.summary.refreshed formats.codec loaded }

/-- The completion of `load_calendar_event`. -/
def loadCalendarEventDone (event : Option (Option CalendarEvent)) (w : PageWorld) : PageWorld :=
  w.update fun p =>
    { p with calendarLoading := false, calendarEvent := event.getD p.calendarEvent }

/-- The completion of `load_action_items`. -/
def loadActionItemsDone (items : Option (List ActionItem)) (w : PageWorld) : PageWorld :=
  w.update fun p => { p with actionItemsLoading := false, actionItems := items.getD p.actionItems }

/-- The completion of `generate_summary`, when the settings of the model are read. -/
def generateSummaryDone (found : Bool) (w : PageWorld) : PageWorld :=
  w.update fun p =>
    { p with summary :=
        if found then p.summary.startPoll
        else { p.summary with view := { p.summary.view with
          summaryPhase := .error "No model configured — set one up in Settings first." } } }

/-- The completion of `save_summary`; the flag is cleared in any load. -/
def saveSummaryDone (generation : ℕ) (markdown : String) (saved : Bool) (w : PageWorld) : PageWorld :=
  (w.update ({ · with savingSummary := false })).guarded generation fun w =>
    if saved then
      w.update fun p =>
        { p with
          summary := { p.summary with
            view := { p.summary.view with
              summaryMarkdown := markdown, summaryHasContent := !markdown.isEmpty }
            text := markdown }
          editingSummary := false }
    else w

/-- The completion of `open_retranscribe`, with the models and whether they are downloaded. -/
def openRetranscribeDone (models : Option (List (String × Bool))) (w : PageWorld) : PageWorld :=
  match models with
  | none => w
  | some models =>
    w.update fun p =>
      let p := { p with retranscribeModels := (models.filter (·.2)).map (·.1) }
      if p.retranscribeModelIndex.isNone && p.retranscribeModels ≠ [] then
        { p with retranscribeModelIndex := some 0 }
      else p

/-- How a retranscription ends. -/
inductive Retranscribed : Type where
  /-- another one was in progress after all; there is no event -/
  | refused
  | complete
  | failed (error : String)

/-- `on_retranscription_complete` and `on_retranscription_error`, which ask for the meeting and not for the
load -/
def retranscribeDone (id : String) (result : Retranscribed) (w : PageWorld) : PageWorld :=
  if w.page.meetingId ≠ some id then w
  else
    match result with
    | .refused => w
    | .complete =>
      (w.update ({ · with
        retranscribeInProgress := false, retranscribeOpen := false })).reloadTranscript
    | .failed e =>
      w.update ({ · with retranscribeInProgress := false, retranscribeError := some e })

/-- The completion of `open_calendar_picker`, with `sort_by_proximity`. -/
def openCalendarPickerDone (anchor : ℤ) (events : Except String (List CalendarEvent)) (w : PageWorld) :
    PageWorld :=
  if w.page.calendarPickerOpen then
    match events with
    | .ok events =>
      w.update ({ · with
        calendarPickerEvents := some (events.mergeSort fun a b =>
          (a.startAt - anchor).natAbs ≤ (b.startAt - anchor).natAbs) })
    | .error e => w.update ({ · with calendarPickerError := some e })
  else w

/-- The completion of `pick_calendar_event`. -/
def pickCalendarEventDone (linked : Bool) (w : PageWorld) : PageWorld :=
  let w := w.update ({ · with calendarMutating := false })
  if linked then (w.update ({ · with calendarPickerOpen := false })).loadCalendarEvent else w

/-- The completion of `toggle_speaker_edit`: a profile has its address filled in. -/
def toggleSpeakerEditDone (key : String) (profiles : Option (List VoiceProfile)) (w : PageWorld) :
    PageWorld :=
  match w.page.speakerEdit with
  | none => w
  | some edit =>
    if edit.key ≠ key then w
    else
      let edit := { edit with profilesLoading := false }
      match profiles with
      | none => w.update ({ · with speakerEdit := some edit })
      | some profiles =>
        let me := edit.voiceProfileId.bind fun id => profiles.find? (·.id == id)
        w.update ({ · with speakerEdit := some { edit with
          email := (me.map fun profile => profile.email.getD "").getD edit.email
          profiles := profiles } })

/-- The completion of `save_speaker_edit`. -/
def saveSpeakerEditDone (key : String) (outcome : Except String Unit) (w : PageWorld) : PageWorld :=
  match outcome with
  | .ok () => (w.update ({ · with speakerEdit := none })).reloadTranscript
  | .error e =>
    w.update fun p =>
      { p with speakerEdit := p.speakerEdit.map fun edit =>
          if edit.key = key then { edit with saving := false, error := some e } else edit }

/-- The completion of `play_segment`. -/
def playSegmentDone (segment : String) (plays : Bool) (w : PageWorld) : PageWorld :=
  if w.page.loadingSegment ≠ some segment then w
  else
    w.update fun p =>
      { p with
        loadingSegment := none
        playingSegment := if plays then some segment else p.playingSegment }

/-- The completion of `save_note`; the flag is cleared in any load. -/
def saveNoteDone (generation : ℕ) (created : Option MeetingNote) (w : PageWorld) : PageWorld :=
  (w.update ({ · with notesSaving := false })).guarded generation fun w =>
    match created with
    | some note => w.update fun p => { p with notes := p.notes ++ [note], notesComposing := false }
    | none => w

/-- The completion of `delete_note`: a note that is still there is put back where it was. -/
def deleteNoteDone (removed : Option MeetingNote) (deleted : Bool) (w : PageWorld) : PageWorld :=
  match removed with
  | some note =>
    if deleted then w
    else
      w.update fun p =>
        { p with notes := (p.notes ++ [note]).mergeSort fun a b => a.createdAt ≤ b.createdAt }
  | none => w

/-- The completion of `toggle_action_item_status`, `save_action_item_edit` and `delete_action_item`. -/
def changeItemsDone (changed : Bool) (w : PageWorld) : PageWorld :=
  if changed then w else w.loadActionItems

/-- The completion of `save_new_action_item`. -/
def saveNewActionItemDone (created : Bool) (w : PageWorld) : PageWorld :=
  if created then w.loadActionItems else w

/-- The completion of `extract_action_items`; the flag is cleared in any load. -/
def extractActionItemsDone (generation : ℕ) (extracted : Bool) (w : PageWorld) : PageWorld :=
  (w.update ({ · with aiExtracting := false })).guarded generation fun w =>
    if extracted then w.loadActionItems else w

/-- `on_action_items_extracted`, which asks for the meeting and not for the load -/
def onActionItemsExtracted (id : String) (w : PageWorld) : PageWorld :=
  if w.page.meetingId ≠ some id then w
  else (w.update ({ · with aiExtracting := false })).loadActionItems

end PageWorld

/-- What a task comes back with; none is a task that failed. -/
def Job.Answer : Job → Type
  | .meeting => Except String (Option MeetingDetails) × Option (Option String)
  | .summary => Except String (Option SummaryProcess)
  | .calendarEvent => Option (Option CalendarEvent)
  | .notes => Option (List MeetingNote)
  | .actionItems => Option (List ActionItem)
  | .confidence => Bool
  | .config => Bool
  | .saveSummary _ => Bool
  | .retranscribeModels => Option (List (String × Bool))
  | .transcript => Option MeetingDetails
  | .retranscription _ => PageWorld.Retranscribed
  | .pickerEvents _ => Except String (List CalendarEvent)
  | .pickEvent => Bool
  | .profiles _ => Option (List VoiceProfile)
  | .saveSpeaker _ => Except String Unit
  | .clip _ => Bool
  | .saveNote => Option MeetingNote
  | .deleteNote _ => Bool
  | .changeItem => Bool
  | .newItem => Bool
  | .extract => Bool

/-- The task of a load is done. -/
def Job.complete (formats : PageFormats) (generation : ℕ) :
    (job : Job) → job.Answer → PageWorld → PageWorld
  | .meeting, answer => PageWorld.guarded generation (.loadDone formats answer.1 answer.2)
  | .summary, loaded => PageWorld.guarded generation (.refreshSummaryDone formats loaded)
  | .calendarEvent, event => PageWorld.guarded generation (.loadCalendarEventDone event)
  | .notes, loaded =>
    PageWorld.guarded generation (.update · fun p => { p with notes := Option.getD loaded p.notes })
  | .actionItems, items => PageWorld.guarded generation (.loadActionItemsDone items)
  | .confidence, shows => PageWorld.guarded generation (.update · ({ · with showConfidence := shows }))
  | .config, found => PageWorld.guarded generation (.generateSummaryDone found)
  | .saveSummary markdown, saved => PageWorld.saveSummaryDone generation markdown saved
  | .retranscribeModels, models => PageWorld.guarded generation (.openRetranscribeDone models)
  | .transcript, details =>
    PageWorld.guarded generation (.update · fun p =>
      { p with transcripts := (Option.map (·.transcripts) details).getD p.transcripts })
  | .retranscription id, result => PageWorld.retranscribeDone id result
  | .pickerEvents anchor, events => PageWorld.guarded generation (.openCalendarPickerDone anchor events)
  | .pickEvent, linked => PageWorld.guarded generation (.pickCalendarEventDone linked)
  | .profiles key, loaded => PageWorld.guarded generation (.toggleSpeakerEditDone key loaded)
  | .saveSpeaker key, outcome => PageWorld.guarded generation (.saveSpeakerEditDone key outcome)
  | .clip segment, plays => PageWorld.guarded generation (.playSegmentDone segment plays)
  | .saveNote, created => PageWorld.saveNoteDone generation created
  | .deleteNote removed, deleted => PageWorld.guarded generation (.deleteNoteDone removed deleted)
  | .changeItem, changed => PageWorld.guarded generation (.changeItemsDone changed)
  | .newItem, created => PageWorld.guarded generation (.saveNewActionItemDone created)
  | .extract, extracted => PageWorld.extractActionItemsDone generation extracted

end MeetingPage

end MeetilyLocal
