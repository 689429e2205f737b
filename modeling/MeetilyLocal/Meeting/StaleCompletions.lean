import Mathlib.Logic.Relation
import MeetilyLocal.Meeting.Page

/-!
# Completions of an earlier load

The page of a meeting in any order of loads, clicks and tasks that are done. A completion of an earlier load
is to change nothing on the page, and what the page says is under way is to be a task of this load.

`save_summary`, `save_note` and `extract_action_items` clear their flag before they compare the generation,
`load` leaves `calendar_mutating` as it is, and three events ask for the meeting or for nothing at all. With
that left out (`CarefulAct`), both hold of every run (`inert_of_reaches`).
-/

namespace MeetilyLocal

namespace MeetingPage

open MeetingsRepository

/-! ## What happens -/

/-- What a user does. -/
inductive UserAct : Type where
  | generateSummary
  | editSummary (editing : Bool)
  | saveSummary (markdown : String)
  | openRetranscribe
  | closeRetranscribe
  | cycleRetranscribeModel
  | startRetranscribe (inProgress : Bool)
  | openCalendarPicker (now : ℤ)
  | closeCalendarPicker
  | pickCalendarEvent
  | toggleSpeakerEdit (key : String) (voiceProfileId : Option String)
  | closeSpeakerEdit
  | saveSpeakerEdit (mergeTarget : Option String) (name : String)
  | toggleSegmentPlayback (segment : String)
  | composeNote (composing : Bool)
  | saveNote (body : String)
  | deleteNote (id : String)
  | toggleActionItemStatus (id : String) (currentlyDone : Bool)
  | editActionItem (id : Option String)
  | saveActionItemEdit (text : String)
  | deleteActionItem (id : String)
  | composeActionItem (adding : Bool)
  | saveNewActionItem (text : String)
  | extractActionItems

namespace UserAct

/-- The button is there and not disabled. -/
def enabled (page : Page) : UserAct → Bool
  | generateSummary =>
    match page.summary.view.summaryPhase with
    | .idle | .error _ => true
    | .loading | .generating => false
  | saveSummary _ => page.editingSummary && !page.savingSummary
  | openRetranscribe => !page.retranscribeInProgress
  | startRetranscribe _ =>
    page.retranscribeOpen && !page.retranscribeInProgress && page.retranscribeError.isNone
  | openCalendarPicker _ | pickCalendarEvent => !page.calendarMutating
  | saveSpeakerEdit _ _ => page.speakerEdit.any (!·.saving)
  | saveNote _ => page.notesComposing && !page.notesSaving
  | extractActionItems => page.summary.view.summaryHasContent && !page.aiExtracting
  | _ => true

/-- The handler of the button. -/
def perform : UserAct → PageWorld → PageWorld
  | generateSummary => .generateSummary
  | editSummary editing => .editSummary editing
  | saveSummary markdown => .saveSummary markdown
  | openRetranscribe => .openRetranscribe
  | closeRetranscribe => .closeRetranscribe
  | cycleRetranscribeModel => .cycleRetranscribeModel
  | startRetranscribe inProgress => .startRetranscribe inProgress
  | openCalendarPicker now => .openCalendarPicker now
  | closeCalendarPicker => .closeCalendarPicker
  | pickCalendarEvent => .pickCalendarEvent
  | toggleSpeakerEdit key voiceProfileId => .toggleSpeakerEdit key voiceProfileId
  | closeSpeakerEdit => .closeSpeakerEdit
  | saveSpeakerEdit mergeTarget name => .saveSpeakerEdit mergeTarget name
  | toggleSegmentPlayback segment => .toggleSegmentPlayback segment
  | composeNote composing => .composeNote composing
  | saveNote body => .saveNote body
  | deleteNote id => .deleteNote id
  | toggleActionItemStatus id currentlyDone => .toggleActionItemStatus id currentlyDone
  | editActionItem id => .editActionItem id
  | saveActionItemEdit text => .saveActionItemEdit text
  | deleteActionItem id => .deleteActionItem id
  | composeActionItem adding => .composeActionItem adding
  | saveNewActionItem text => .saveNewActionItem text
  | extractActionItems => .extractActionItems

end UserAct

/-- How the page is left, `guard_navigate`. -/
inductive Leaving : Type where
  | goes
  /-- `discard_summary_edits` -/
  | discards
  /-- `save_summary_and_leave` -/
  | saves (markdown : String)

/-- The page is left. -/
def PageWorld.leave (leaving : Leaving) (w : PageWorld) : PageWorld :=
  let w := { w with shown := false }
  match leaving with
  | .goes => w
  | .discards => w.editSummary false
  | .saves markdown => w.saveSummary markdown

/-- A tick of the poll, which ends when no summary is generated. -/
def PageWorld.pollTick (w : PageWorld) : PageWorld :=
  (w.spawnRead .summary).update fun p =>
    { p with summary := { p.summary with
        polling := (p.summary.view.summaryPhase matches .generating) } }

/-- What happens next. -/
inductive PageAct : Type where
  | acts (act : UserAct)
  | loads (id : String)
  | leaves (leaving : Leaving)
  /-- the database is opened -/
  | opens
  /-- a task is done -/
  | completes (before : List Pending) (t : Pending) (after : List Pending) (answer : t.job.Answer)
  /-- `summary-stream`, for this meeting -/
  | streams (delta : String)
  | polls
  | reveals
  /-- `retranscription-progress`, for this meeting -/
  | progresses (percentage : ℕ) (message : String)
  /-- `action-items-extracted`, of an extraction that was started in a load -/
  | extracts (since : ℕ) (id : String)
  /-- `segment-playback-ended`, of a clip that was asked for in a load -/
  | playbackEnds (since : ℕ)

section Runs

variable (formats : PageFormats) (reduceMotion : Bool)

/-- One of these. -/
inductive PageStep : PageAct → PageWorld → PageWorld → Prop
  | acts (w : PageWorld) (act : UserAct) (hshown : w.shown = true)
      (henabled : act.enabled w.page = true) : PageStep (.acts act) w (act.perform w)
  | loads (w : PageWorld) (id : String) : PageStep (.loads id) w (w.load id)
  | leaves (w : PageWorld) (leaving : Leaving) : PageStep (.leaves leaving) w (w.leave leaving)
  | opens (w : PageWorld) : PageStep .opens w { w with pool := true }
  | completes (w : PageWorld) (before after : List Pending) (t : Pending) (answer : t.job.Answer)
      (hpending : w.pending = before ++ t :: after) :
      PageStep (.completes before t after answer) w
        (t.job.complete formats t.generation answer { w with pending := before ++ after })
  | streams (w : PageWorld) (delta : String) :
      PageStep (.streams delta) w
        (w.update fun p => { p with summary := p.summary.onSummaryStream reduceMotion delta })
  | polls (w : PageWorld) (hpolling : w.page.summary.polling = true) : PageStep .polls w w.pollTick
  | reveals (w : PageWorld) (hrevealing : w.page.summary.revealing = true) :
      PageStep .reveals w (w.update fun p => { p with summary := p.summary.revealTick })
  | progresses (w : PageWorld) (percentage : ℕ) (message : String) :
      PageStep (.progresses percentage message) w
        (w.update ({ · with
          retranscribeProgressPct := percentage, retranscribeProgressMessage := message }))
  | extracts (w : PageWorld) (since : ℕ) (id : String) (hpool : w.pool = true) :
      PageStep (.extracts since id) w (w.onActionItemsExtracted id)
  | playbackEnds (w : PageWorld) (since : ℕ) : PageStep (.playbackEnds since) w w.stopSegmentPlayback

/-- It completes something of an earlier load. -/
def PageAct.Stale (page : Page) : PageAct → Prop
  | completes _ t _ _ => t.generation ≠ page.generation
  | extracts since _ => since ≠ page.generation
  | playbackEnds since => since ≠ page.generation
  | _ => False

/-- A completion of an earlier load that finds nothing to clear. -/
def Job.FindsNothing (page : Page) : Job → Prop
  | saveSummary _ => page.savingSummary = false
  | saveNote => page.notesSaving = false
  | extract => page.aiExtracting = false
  | retranscription id => page.meetingId ≠ some id
  | _ => True

/-- A retranscription that was asked for and is not started. -/
def Job.Refused : (job : Job) → job.Answer → Prop
  | retranscription _, answer => answer = PageWorld.Retranscribed.refused
  | _, _ => False

/-- **When completions of an earlier load are inert**: a meeting is opened with a database, and while no event
is linked to the one before; what comes back of an earlier load and does not ask for the load finds nothing
to clear; and a retranscription of this load is started. -/
def CarefulAct (w : PageWorld) : PageAct → Prop
  | .loads _ => w.pool = true ∧ w.page.calendarMutating = false
  | .completes _ t _ answer =>
    if t.generation = w.page.generation then ¬t.job.Refused answer else t.job.FindsNothing w.page
  | .extracts since id =>
    since = w.page.generation ∨ w.page.meetingId ≠ some id ∨ w.page.aiExtracting = false
  | .playbackEnds since =>
    since = w.page.generation ∨ (w.page.playingSegment = none ∧ w.page.loadingSegment = none)
  | _ => True

/-- A step under this condition. -/
def CarefulPageStep (w w' : PageWorld) : Prop :=
  ∃ act, PageStep formats reduceMotion act w w' ∧ CarefulAct w act

/-- The page as it is made. -/
def PageWorld.made (pool : Bool) : PageWorld := ⟨.new, pool, false, []⟩

/-- What follows by such steps. -/
def PageReaches (pool : Bool) : PageWorld → Prop :=
  Relation.ReflTransGen (CarefulPageStep formats reduceMotion) (.made pool)

end Runs

/-! ## What the page says is under way -/

/-- What the page says is under way. -/
inductive Flag : Type where
  | transcripts
  | summary
  | generating
  | savingSummary
  | retranscription
  | calendarEvent
  | calendarMutating
  | profiles
  | savingSpeaker
  | clip
  | savingNote
  | actionItems
  | extracting

namespace Flag

/-- The flag is set. -/
def isSet (page : Page) : Flag → Bool
  | transcripts => page.transcriptsLoading
  | summary => (page.summary.view.summaryPhase matches .loading)
  | generating => (page.summary.view.summaryPhase matches .generating)
  | savingSummary => page.savingSummary
  | retranscription => page.retranscribeInProgress
  | calendarEvent => page.calendarLoading
  | calendarMutating => page.calendarMutating
  | profiles => page.speakerEdit.any (·.profilesLoading)
  | savingSpeaker => page.speakerEdit.any (·.saving)
  | clip => page.loadingSegment.isSome
  | savingNote => page.notesSaving
  | actionItems => page.actionItemsLoading
  | extracting => page.aiExtracting

/-- A task of this load that clears the flag when it is done. -/
def ClearedBy (page : Page) (job : Job) : Flag → Prop
  | transcripts => job = .meeting
  | summary => job = .summary
  | generating => job = .config
  | savingSummary => ∃ markdown, job = .saveSummary markdown
  | retranscription => ∃ id, page.meetingId = some id ∧ job = .retranscription id
  | calendarEvent => job = .calendarEvent
  | calendarMutating => job = .pickEvent
  | profiles => ∃ edit, page.speakerEdit = some edit ∧ job = .profiles edit.key
  | savingSpeaker => ∃ edit, page.speakerEdit = some edit ∧ job = .saveSpeaker edit.key
  | clip => ∃ segment, page.loadingSegment = some segment ∧ job = .clip segment
  | savingNote => job = .saveNote
  | actionItems => job = .actionItems
  | extracting => job = .extract

end Flag

/-- What is submitted by a task that alone clears the flag. -/
inductive Submission : Type where
  | summary
  | calendarEvent
  | note
  deriving DecidableEq

/-- The flag of a submission. -/
def Submission.flag : Submission → Flag
  | summary => .savingSummary
  | calendarEvent => .calendarMutating
  | note => .savingNote

/-- What a task submits. -/
def Job.submission : Job → Option Submission
  | saveSummary _ => some .summary
  | pickEvent => some .calendarEvent
  | saveNote => some .note
  | _ => none

/-- So many submissions of this load are under way. -/
def PageWorld.submissions (w : PageWorld) (s : Submission) : ℕ :=
  w.pending.countP fun t => t.generation = w.page.generation ∧ t.job.submission = some s

/-! ## The tasks account for the flags -/

/-- A flag that is set has a task of this load that clears it, or the poll does. -/
def Owned (w : PageWorld) (flag : Flag) : Prop :=
  (flag = .generating ∧ w.page.summary.polling = true) ∨
    ∃ t ∈ w.pending, t.generation = w.page.generation ∧ flag.ClearedBy w.page t.job

/-- **The tasks account for the flags.** -/
structure Accounted (w : PageWorld) : Prop where
  /-- no task is of a later load -/
  past : ∀ t ∈ w.pending, t.generation ≤ w.page.generation
  /-- a page is shown with a database -/
  pool : w.shown = true → w.pool = true
  /-- what is set will be cleared -/
  owned : ∀ flag : Flag, flag.isSet w.page = true → Owned w flag
  /-- a submission has its flag set, and is the only one -/
  single : w.shown = true → ∀ s : Submission, w.submissions s ≤ (s.flag.isSet w.page).toNat

/-- The flag that a task clears. -/
def Job.flag : Job → Option Flag
  | meeting => some .transcripts
  | summary => some .summary
  | config => some .generating
  | saveSummary _ => some .savingSummary
  | retranscription _ => some .retranscription
  | calendarEvent => some .calendarEvent
  | pickEvent => some .calendarMutating
  | profiles _ => some .profiles
  | saveSpeaker _ => some .savingSpeaker
  | clip _ => some .clip
  | saveNote => some .savingNote
  | actionItems => some .actionItems
  | extract => some .extracting
  | notes | confidence | retranscribeModels | transcript | pickerEvents _ | deleteNote _ | changeItem
  | newItem => none

theorem flag_of_clearedBy {page : Page} {job : Job} {flag : Flag} (h : flag.ClearedBy page job) :
    job.flag = some flag := by
  cases flag with
  | retranscription | profiles | savingSpeaker | clip =>
    obtain ⟨_, -, rfl⟩ := h
    rfl
  | savingSummary =>
    obtain ⟨_, rfl⟩ := h
    rfl
  | _ =>
    obtain rfl := h
    rfl

theorem submission_of_flag {job : Job} {s : Submission} (h : job.flag = some s.flag) :
    job.submission = some s := by
  cases job <;> cases s <;> first | rfl | cases h

/-- A page on which a flag is as it was, and cleared as it was. -/
def SameFlag (p p' : Page) (flag : Flag) : Prop :=
  flag.isSet p' = flag.isSet p ∧ ∀ job, flag.ClearedBy p job → flag.ClearedBy p' job

/-- What the flags and the tasks go by. -/
structure Busy : Type where
  generation : ℕ
  meetingId : Option String
  transcriptsLoading : Bool
  summaryPhase : SummaryPhase
  polling : Bool
  savingSummary : Bool
  retranscribeInProgress : Bool
  calendarLoading : Bool
  calendarMutating : Bool
  speakerEdit : Option SpeakerEdit
  loadingSegment : Option String
  notesSaving : Bool
  actionItemsLoading : Bool
  aiExtracting : Bool

/-- What the flags and the tasks of a page go by. -/
def Page.busy (p : Page) : Busy :=
  ⟨p.generation, p.meetingId, p.transcriptsLoading, p.summary.view.summaryPhase, p.summary.polling,
    p.savingSummary, p.retranscribeInProgress, p.calendarLoading, p.calendarMutating, p.speakerEdit,
    p.loadingSegment, p.notesSaving, p.actionItemsLoading, p.aiExtracting⟩

theorem sameFlag_of_busy {p p' : Page} (h : p'.busy = p.busy) (flag : Flag) : SameFlag p p' flag := by
  simp only [Page.busy, Busy.mk.injEq] at h
  cases flag <;> simp [SameFlag, Flag.isSet, Flag.ClearedBy, h]

@[simp] theorem update_page (w : PageWorld) (f : Page → Page) : (w.update f).page = f w.page := rfl

@[simp] theorem update_pending (w : PageWorld) (f : Page → Page) : (w.update f).pending = w.pending := rfl

@[simp] theorem update_pool (w : PageWorld) (f : Page → Page) : (w.update f).pool = w.pool := rfl

@[simp] theorem spawn_page (w : PageWorld) (job : Job) : (w.spawn job).page = w.page := rfl

@[simp] theorem spawn_pending (w : PageWorld) (job : Job) :
    (w.spawn job).pending = w.pending ++ [⟨w.page.generation, job⟩] := rfl

theorem submissions_spawn (w : PageWorld) (job : Job) (s : Submission) :
    (w.spawn job).submissions s = w.submissions s + if job.submission = some s then 1 else 0 := by
  rw [PageWorld.submissions, PageWorld.submissions, spawn_pending, List.countP_append,
    List.countP_singleton]
  refine congrArg₂ (· + ·) rfl ?_
  simp

theorem Owned.spawn {w : PageWorld} {flag : Flag} (h : Owned w flag) (job : Job) :
    Owned (w.spawn job) flag := by
  obtain hpoll | ⟨t, ht, hgen, hcleared⟩ := h
  · exact .inl hpoll
  · exact .inr ⟨t, List.mem_append_left _ ht, hgen, hcleared⟩

theorem owned_spawn_iff {w : PageWorld} {job : Job} {flag : Flag} :
    Owned (w.spawn job) flag ↔ Owned w flag ∨ flag.ClearedBy w.page job := by
  simp only [Owned, spawn_pending, spawn_page, List.mem_append, List.mem_singleton]
  constructor
  · rintro (hpoll | ⟨t, ht | rfl, hgen, hcleared⟩)
    · exact .inl (.inl hpoll)
    · exact .inl (.inr ⟨t, ht, hgen, hcleared⟩)
    · exact .inr hcleared
  · rintro ((hpoll | ⟨t, ht, hgen, hcleared⟩) | hcleared)
    · exact .inl hpoll
    · exact .inr ⟨t, .inl ht, hgen, hcleared⟩
    · exact .inr ⟨_, .inr rfl, rfl, hcleared⟩

/-- A flag that is as it was is still owned. -/
theorem Owned.update {w : PageWorld} {flag : Flag} {f : Page → Page} (h : Owned w flag)
    (hgen : (f w.page).generation = w.page.generation)
    (hpoll : w.page.summary.polling = true → (f w.page).summary.polling = true)
    (hcleared : ∀ job, flag.ClearedBy w.page job → flag.ClearedBy (f w.page) job) :
    Owned (w.update f) flag := by
  obtain ⟨hflag, hpolling⟩ | ⟨t, ht, hcurrent, hclears⟩ := h
  · exact .inl ⟨hflag, hpoll hpolling⟩
  · exact .inr ⟨t, ht, hcurrent.trans hgen.symm, hcleared t.job hclears⟩

theorem submissions_update (w : PageWorld) {f : Page → Page}
    (hgen : (f w.page).generation = w.page.generation) (s : Submission) :
    (w.update f).submissions s = w.submissions s := by
  simp [PageWorld.submissions, hgen]

/-! ## Clicks -/

/-- Nothing that is under way changes. -/
theorem Accounted.keep {w : PageWorld} (h : Accounted w) {f : Page → Page}
    (hbusy : (f w.page).busy = w.page.busy) : Accounted (w.update f) := by
  have hsame := sameFlag_of_busy hbusy
  simp only [Page.busy, Busy.mk.injEq] at hbusy
  obtain ⟨hgen, -, -, -, hpoll, -⟩ := hbusy
  refine ⟨?_, h.pool, ?_, ?_⟩
  · rw [update_page, hgen]
    exact h.past
  · intro flag hset
    obtain ⟨hisSet, hcleared⟩ := hsame flag
    exact (h.owned flag (hisSet ▸ hset)).update hgen hpoll.trans hcleared
  · intro hshown s
    rw [submissions_update w hgen, update_page, (hsame s.flag).1]
    exact h.single hshown s

/-- A task that submits nothing is spawned. -/
theorem Accounted.spawn {w : PageWorld} (h : Accounted w) {job : Job} (hjob : job.submission = none) :
    Accounted (w.spawn job) := by
  refine ⟨?_, h.pool, fun flag hset => (h.owned flag hset).spawn job, ?_⟩
  · intro t ht
    obtain ht | rfl := List.mem_append.mp ht |>.imp id List.mem_singleton.mp
    · exact h.past t ht
    · exact le_rfl
  · intro hshown s
    rw [submissions_spawn, hjob]
    exact h.single hshown s

theorem Accounted.spawnRead {w : PageWorld} (h : Accounted w) {job : Job}
    (hjob : job.submission = none) : Accounted (w.spawnRead job) := by
  rw [PageWorld.spawnRead]
  split_ifs
  · exact h.spawn hjob
  · exact h

/-- Flags are set, and a task is spawned that clears them. -/
theorem Accounted.start {w : PageWorld} (h : Accounted w) {f : Page → Page} {job : Job}
    (hgen : (f w.page).generation = w.page.generation)
    (hpoll : w.page.summary.polling = true → (f w.page).summary.polling = true)
    (hflags : ∀ flag : Flag, flag.isSet (f w.page) = true →
      flag.ClearedBy (f w.page) job ∨ SameFlag w.page (f w.page) flag)
    (hsubmits : ∀ s : Submission, job.submission = some s →
      w.shown = true → s.flag.isSet w.page = false ∧ s.flag.isSet (f w.page) = true)
    (hkeeps : ∀ s : Submission, s.flag.isSet w.page = true → s.flag.isSet (f w.page) = true) :
    Accounted ((w.update f).spawn job) := by
  refine ⟨?_, h.pool, ?_, ?_⟩
  · intro t ht
    obtain ht | rfl := List.mem_append.mp ht |>.imp id List.mem_singleton.mp
    · exact (h.past t ht).trans_eq hgen.symm
    · exact le_rfl
  · intro flag hset
    obtain hclears | ⟨hisSet, hcleared⟩ := hflags flag hset
    · exact owned_spawn_iff.mpr (.inr hclears)
    · exact ((h.owned flag (hisSet ▸ hset)).update hgen hpoll hcleared).spawn job
  · intro hshown s
    have hsingle := h.single hshown s
    rw [submissions_spawn, submissions_update w hgen, spawn_page, update_page]
    by_cases hs : job.submission = some s
    · obtain ⟨hunset, hset⟩ := hsubmits s hs hshown
      rw [hunset] at hsingle
      rw [hset, if_pos hs]
      exact Nat.add_le_add_right hsingle 1
    · rw [if_neg hs]
      exact hsingle.trans (Bool.toNat_le_toNat (hkeeps s))

/-- Flags are only cleared, by the user. -/
theorem Accounted.clear {w : PageWorld} (h : Accounted w) {f : Page → Page}
    (hgen : (f w.page).generation = w.page.generation)
    (hpoll : w.page.summary.polling = true → (f w.page).summary.polling = true)
    (hflags : ∀ flag : Flag, flag.isSet (f w.page) = true → SameFlag w.page (f w.page) flag)
    (hkeeps : ∀ s : Submission, s.flag.isSet w.page = true → s.flag.isSet (f w.page) = true) :
    Accounted (w.update f) := by
  refine ⟨?_, h.pool, ?_, ?_⟩
  · rw [update_page, hgen]
    exact h.past
  · intro flag hset
    obtain ⟨hisSet, hcleared⟩ := hflags flag hset
    exact (h.owned flag (hisSet ▸ hset)).update hgen hpoll hcleared
  · intro hshown s
    rw [submissions_update w hgen, update_page]
    exact (h.single hshown s).trans (Bool.toNat_le_toNat (hkeeps s))

theorem Accounted.generateSummary {w : PageWorld} (h : Accounted w) : Accounted w.generateSummary := by
  rw [PageWorld.generateSummary]
  split_ifs
  · apply h.start rfl id
    · intro flag hset
      cases flag with
      | generating => exact .inl rfl
      | summary => cases hset
      | _ => exact .inr ⟨rfl, fun _ hcleared => hcleared⟩
    · nofun
    · intro s hset
      cases s <;> exact hset
  · exact h

theorem Accounted.saveSummary {w : PageWorld} (h : Accounted w) (markdown : String)
    (hshown : w.shown = true → w.page.savingSummary = false) : Accounted (w.saveSummary markdown) := by
  rw [PageWorld.saveSummary]
  split_ifs
  · apply h.start rfl id
    · intro flag hset
      cases flag with
      | savingSummary => exact .inl ⟨markdown, rfl⟩
      | _ => exact .inr ⟨rfl, fun _ hcleared => hcleared⟩
    · rintro s ⟨⟩ hw
      exact ⟨hshown hw, rfl⟩
    · intro s hset
      cases s with
      | summary => rfl
      | _ => exact hset
  · exact h

theorem Accounted.startRetranscribe {w : PageWorld} (h : Accounted w) (inProgress : Bool) :
    Accounted (w.startRetranscribe inProgress) := by
  rw [PageWorld.startRetranscribe]
  split
  next id folder hid hfolder =>
    split_ifs
    · exact h
    · apply h.start rfl fun hpolling => hpolling
      · intro flag hset
        cases flag with
        | retranscription => exact .inl ⟨id, hid, rfl⟩
        | _ => exact .inr ⟨rfl, fun _ hcleared => hcleared⟩
      · nofun
      · intro s hset
        cases s <;> exact hset
  next => exact h

theorem Accounted.pickCalendarEvent {w : PageWorld} (h : Accounted w)
    (hunset : w.page.calendarMutating = false) : Accounted w.pickCalendarEvent := by
  rw [PageWorld.pickCalendarEvent]
  split_ifs
  · apply h.start rfl id
    · intro flag hset
      cases flag with
      | calendarMutating => exact .inl rfl
      | _ => exact .inr ⟨rfl, fun _ hcleared => hcleared⟩
    · rintro s ⟨⟩ -
      exact ⟨hunset, rfl⟩
    · intro s hset
      cases s with
      | calendarEvent => rfl
      | _ => exact hset
  · exact h

theorem Accounted.closeSpeakerEdit {w : PageWorld} (h : Accounted w) : Accounted w.closeSpeakerEdit := by
  apply h.clear rfl id
  · intro flag hset
    cases flag with
    | profiles => cases hset
    | savingSpeaker => cases hset
    | _ => exact ⟨rfl, fun _ hcleared => hcleared⟩
  · intro s hset
    cases s <;> exact hset

theorem Accounted.toggleSpeakerEdit {w : PageWorld} (h : Accounted w) (key : String)
    (voiceProfileId : Option String) (hpool : w.pool = true) :
    Accounted (w.toggleSpeakerEdit key voiceProfileId) := by
  rw [PageWorld.toggleSpeakerEdit]
  split_ifs
  · exact h.closeSpeakerEdit
  · simp only [update_pool, hpool, if_true]
    apply h.start rfl id
    · intro flag hset
      cases flag with
      | profiles => exact .inl ⟨_, rfl, rfl⟩
      | savingSpeaker => cases hset
      | _ => exact .inr ⟨rfl, fun _ hcleared => hcleared⟩
    · nofun
    · intro s hset
      cases s <;> exact hset

theorem Accounted.saveSpeakerEdit {w : PageWorld} (h : Accounted w) (mergeTarget : Option String)
    (name : String) : Accounted (w.saveSpeakerEdit mergeTarget name) := by
  rw [PageWorld.saveSpeakerEdit]
  split
  next => exact h
  next edit hedit =>
    split_ifs
    · apply h.start rfl id
      · intro flag hset
        cases flag with
        | savingSpeaker => exact .inl ⟨_, rfl, rfl⟩
        | profiles =>
          right
          refine ⟨by simp [Flag.isSet, hedit], ?_⟩
          rintro job ⟨edit', hedit', rfl⟩
          obtain rfl := Option.some.inj (hedit'.symm.trans hedit)
          exact ⟨_, rfl, rfl⟩
        | _ => exact .inr ⟨rfl, fun _ hcleared => hcleared⟩
      · nofun
      · intro s hset
        cases s <;> exact hset
    · exact h

theorem Accounted.stopSegmentPlayback {w : PageWorld} (h : Accounted w) :
    Accounted w.stopSegmentPlayback := by
  apply h.clear rfl id
  · intro flag hset
    cases flag with
    | clip => cases hset
    | _ => exact ⟨rfl, fun _ hcleared => hcleared⟩
  · intro s hset
    cases s <;> exact hset

theorem Accounted.toggleSegmentPlayback {w : PageWorld} (h : Accounted w) (segment : String) :
    Accounted (w.toggleSegmentPlayback segment) := by
  rw [PageWorld.toggleSegmentPlayback]
  split_ifs
  · exact h.stopSegmentPlayback
  · apply h.start rfl id
    · intro flag hset
      cases flag with
      | clip => exact .inl ⟨segment, rfl, rfl⟩
      | _ => exact .inr ⟨rfl, fun _ hcleared => hcleared⟩
    · nofun
    · intro s hset
      cases s <;> exact hset
  · exact h

theorem Accounted.saveNote {w : PageWorld} (h : Accounted w) (body : String) :
    Accounted (w.saveNote body) := by
  rw [PageWorld.saveNote]
  split_ifs with hpool hbody
  · exact h
  · exact h
  · simp only [Bool.or_eq_true, decide_eq_true_eq, not_or, Bool.not_eq_true] at hbody
    apply h.start rfl id
    · intro flag hset
      cases flag with
      | savingNote => exact .inl rfl
      | _ => exact .inr ⟨rfl, fun _ hcleared => hcleared⟩
    · rintro s ⟨⟩ -
      exact ⟨hbody.2, rfl⟩
    · intro s hset
      cases s with
      | note => rfl
      | _ => exact hset

theorem Accounted.extractActionItems {w : PageWorld} (h : Accounted w) :
    Accounted w.extractActionItems := by
  rw [PageWorld.extractActionItems]
  split_ifs
  · apply h.start rfl id
    · intro flag hset
      cases flag with
      | extracting => exact .inl rfl
      | _ => exact .inr ⟨rfl, fun _ hcleared => hcleared⟩
    · nofun
    · intro s hset
      cases s <;> exact hset
  · exact h

theorem Accounted.changeItems {w : PageWorld} (h : Accounted w)
    (change : List ActionItem → List ActionItem) : Accounted (w.changeItems change) := by
  rw [PageWorld.changeItems]
  split_ifs
  · apply Accounted.spawn _ rfl
    exact h.keep rfl
  · exact h

/-- A click keeps the account. -/
theorem Accounted.perform {w : PageWorld} (h : Accounted w) (hshown : w.shown = true) (act : UserAct)
    (henabled : act.enabled w.page = true) : Accounted (act.perform w) := by
  cases act with
  | generateSummary => exact h.generateSummary
  | editSummary editing =>
    rw [UserAct.perform, PageWorld.editSummary]
    exact h.keep rfl
  | saveSummary markdown =>
    have hunset : w.page.savingSummary = false := by simp_all [UserAct.enabled]
    exact h.saveSummary markdown fun _ => hunset
  | openRetranscribe =>
    have hopened : Accounted (w.update ({ · with retranscribeOpen := true, retranscribeError := none })) :=
      h.keep rfl
    rw [UserAct.perform, PageWorld.openRetranscribe]
    split
    · exact h
    · simp only
      split_ifs
      · exact hopened
      · exact hopened.spawn rfl
  | closeRetranscribe =>
    rw [UserAct.perform, PageWorld.closeRetranscribe]
    exact h.keep rfl
  | cycleRetranscribeModel =>
    rw [UserAct.perform, PageWorld.cycleRetranscribeModel]
    split_ifs
    · exact h
    · exact h.keep rfl
  | startRetranscribe inProgress => exact h.startRetranscribe inProgress
  | openCalendarPicker now =>
    have hopened : ∀ error, Accounted (w.update ({ · with
        calendarPickerOpen := true, calendarPickerEvents := none, calendarPickerError := error })) :=
      fun error => h.keep rfl
    rw [UserAct.perform, PageWorld.openCalendarPicker]
    simp only [update_pool, h.pool hshown, if_true]
    exact (hopened none).spawn rfl
  | closeCalendarPicker =>
    rw [UserAct.perform, PageWorld.closeCalendarPicker]
    exact h.keep rfl
  | pickCalendarEvent =>
    have hunset : w.page.calendarMutating = false := by simp_all [UserAct.enabled]
    exact h.pickCalendarEvent hunset
  | toggleSpeakerEdit key voiceProfileId => exact h.toggleSpeakerEdit key voiceProfileId (h.pool hshown)
  | closeSpeakerEdit => exact h.closeSpeakerEdit
  | saveSpeakerEdit mergeTarget name => exact h.saveSpeakerEdit mergeTarget name
  | toggleSegmentPlayback segment => exact h.toggleSegmentPlayback segment
  | composeNote composing =>
    rw [UserAct.perform, PageWorld.composeNote]
    exact h.keep rfl
  | saveNote body => exact h.saveNote body
  | deleteNote id =>
    rw [UserAct.perform, PageWorld.deleteNote]
    split_ifs
    · apply Accounted.spawn _ rfl
      exact h.keep rfl
    · exact h
  | toggleActionItemStatus id currentlyDone => exact h.changeItems _
  | editActionItem id =>
    rw [UserAct.perform, PageWorld.editActionItem]
    exact h.keep rfl
  | saveActionItemEdit text =>
    have hclosed : Accounted (w.update ({ · with aiEditingId := none })) :=
      h.keep rfl
    rw [UserAct.perform, PageWorld.saveActionItemEdit]
    split
    next => exact h
    next id hid =>
      simp only
      split_ifs
      · exact hclosed
      · exact hclosed.changeItems _
  | deleteActionItem id => exact h.changeItems _
  | composeActionItem adding =>
    rw [UserAct.perform, PageWorld.composeActionItem]
    exact h.keep rfl
  | saveNewActionItem text =>
    rw [UserAct.perform, PageWorld.saveNewActionItem]
    split_ifs
    · apply Accounted.spawn _ rfl
      exact h.keep rfl
    · exact h
  | extractActionItems => exact h.extractActionItems

/-! ## Completions -/

theorem guarded_of_eq {w : PageWorld} {generation : ℕ} (h : generation = w.page.generation)
    (f : PageWorld → PageWorld) : w.guarded generation f = f w :=
  if_neg (not_not_intro h.symm)

theorem guarded_of_ne {w : PageWorld} {generation : ℕ} (h : generation ≠ w.page.generation)
    (f : PageWorld → PageWorld) : w.guarded generation f = w :=
  if_pos h.symm

/-- A task of this load is done, and clears its flag. -/
theorem Accounted.finish {w : PageWorld} {job : Job} (h : Accounted (w.spawn job)) {f : Page → Page}
    (hgen : (f w.page).generation = w.page.generation)
    (hpoll : w.page.summary.polling = true → (f w.page).summary.polling = true)
    (hflags : ∀ flag : Flag, flag.isSet (f w.page) = true →
      (flag = .generating ∧ (f w.page).summary.polling = true) ∨
        (¬flag.ClearedBy w.page job ∧ SameFlag w.page (f w.page) flag))
    (hkeeps : ∀ s : Submission, job.submission ≠ some s →
      s.flag.isSet w.page = true → s.flag.isSet (f w.page) = true) :
    Accounted (w.update f) := by
  refine ⟨?_, h.pool, ?_, ?_⟩
  · intro t ht
    exact (h.past t (List.mem_append_left _ ht)).trans_eq hgen.symm
  · intro flag hset
    obtain hpolled | ⟨hclears, hisSet, hcleared⟩ := hflags flag hset
    · exact .inl hpolled
    · obtain howned | hjob := owned_spawn_iff.mp (h.owned flag (hisSet ▸ hset))
      · exact howned.update hgen hpoll hcleared
      · exact absurd hjob hclears
  · intro hshown s
    have hsingle := h.single hshown s
    rw [submissions_spawn, spawn_page] at hsingle
    rw [submissions_update w hgen, update_page]
    by_cases hs : job.submission = some s
    · -- the task was the only one
      rw [if_pos hs] at hsingle
      have hle := Bool.toNat_le (s.flag.isSet w.page)
      omega
    · rw [if_neg hs] at hsingle
      exact hsingle.trans (Bool.toNat_le_toNat (hkeeps s hs))

/-- A task of this load is done that clears no flag that is there. -/
theorem Accounted.drop {w : PageWorld} {job : Job} (h : Accounted (w.spawn job))
    (hclears : ∀ flag : Flag, ¬flag.ClearedBy w.page job) : Accounted w := by
  have hupdate : w.update id = w := rfl
  rw [← hupdate]
  apply h.finish rfl id
  · intro flag hset
    exact .inr ⟨hclears flag, rfl, fun _ hcleared => hcleared⟩
  · intro s hs hset
    exact hset

/-- A task of this load is done that has no flag. -/
theorem Accounted.drop_of_flag {w : PageWorld} {job : Job} (h : Accounted (w.spawn job))
    (hjob : job.flag = none) : Accounted w :=
  h.drop fun _ hcleared => absurd (hjob.symm.trans (flag_of_clearedBy hcleared)) nofun

/-- A task of this load is done, and all it does to the flags is that it clears its own. -/
theorem Accounted.finishFlag {w : PageWorld} {job : Job} (h : Accounted (w.spawn job)) {f : Page → Page}
    {flag : Flag} (hjob : job.flag = some flag)
    (hgen : (f w.page).generation = w.page.generation)
    (hpoll : w.page.summary.polling = true → (f w.page).summary.polling = true)
    (hunset : flag.isSet (f w.page) = false)
    (hothers : ∀ other, other ≠ flag → SameFlag w.page (f w.page) other) : Accounted (w.update f) := by
  apply h.finish hgen hpoll
  · intro other hset
    have hne : other ≠ flag := by
      rintro rfl
      exact absurd (hset.symm.trans hunset) nofun
    refine .inr ⟨fun hcleared => hne ?_, hothers other hne⟩
    exact Option.some.inj ((flag_of_clearedBy hcleared).symm.trans hjob)
  · intro s hs hset
    have hne : s.flag ≠ flag := by
      rintro rfl
      exact hs (submission_of_flag hjob)
    rw [(hothers s.flag hne).1]
    exact hset

theorem Accounted.loadDone {w : PageWorld} (h : Accounted (w.spawn .meeting)) (formats : PageFormats)
    (details : Except String (Option MeetingDetails)) (metadata : Option (Option String)) :
    Accounted (w.loadDone formats details metadata) := by
  rcases details with e | _ | details
  all_goals
    apply h.finishFlag rfl rfl id rfl
    intro flag hne
    cases flag with
    | transcripts => exact absurd rfl hne
    | _ => exact ⟨rfl, fun _ hcleared => hcleared⟩

/-- A row that is shown is not loaded any more, and polled if it is in progress. -/
theorem phase_refreshed (codec : SummaryCodec) (panel : SummaryPanel)
    (loaded : Except String (Option SummaryProcess)) :
    (panel.refreshed codec loaded).view.summaryPhase ≠ .loading ∧
      ((panel.refreshed codec loaded).view.summaryPhase = .generating →
        (panel.refreshed codec loaded).polling = true) ∧
      (panel.polling = true → (panel.refreshed codec loaded).polling = true) := by
  rw [SummaryPanel.refreshed]
  rcases loaded with e | _ | process
  · simp [refreshSummary, SummaryPanel.isGenerating]
  · simp [refreshSummary, SummaryPanel.isGenerating]
  · have hloading : SummaryPhase.ofProcess process ≠ .loading := by
      rw [SummaryPhase.ofProcess]
      split <;> simp
    by_cases hgenerating : SummaryPanel.isGenerating (.ok (some process)) = true
    · rw [if_pos hgenerating]
      exact ⟨hloading, fun _ => rfl, fun _ => rfl⟩
    · rw [if_neg hgenerating]
      rw [isGenerating_iff] at hgenerating
      exact ⟨hloading, fun h => absurd h hgenerating, id⟩

theorem isSet_summary_iff {page : Page} :
    Flag.isSet page .summary = true ↔ page.summary.view.summaryPhase = .loading := by
  rw [Flag.isSet]
  split <;> simp_all

theorem isSet_generating_iff {page : Page} :
    Flag.isSet page .generating = true ↔ page.summary.view.summaryPhase = .generating := by
  rw [Flag.isSet]
  split <;> simp_all

theorem Accounted.refreshSummaryDone {w : PageWorld} (h : Accounted (w.spawn .summary))
    (formats : PageFormats) (loaded : Except String (Option SummaryProcess)) :
    Accounted (w.refreshSummaryDone formats loaded) := by
  obtain ⟨hloading, hpolled, hpoll⟩ := phase_refreshed formats.codec w.page.summary loaded
  apply h.finish rfl hpoll
  · intro flag hset
    cases flag with
    | summary => exact absurd (isSet_summary_iff.mp hset) hloading
    | generating => exact .inl ⟨rfl, hpolled (isSet_generating_iff.mp hset)⟩
    | _ => exact .inr ⟨by simp [Flag.ClearedBy], rfl, fun _ hcleared => hcleared⟩
  · intro s hs hset
    cases s <;> exact hset

theorem Accounted.loadCalendarEventDone {w : PageWorld} (h : Accounted (w.spawn .calendarEvent))
    (event : Option (Option CalendarEvent)) : Accounted (w.loadCalendarEventDone event) := by
  apply h.finishFlag rfl rfl id rfl
  intro flag hne
  cases flag with
  | calendarEvent => exact absurd rfl hne
  | _ => exact ⟨rfl, fun _ hcleared => hcleared⟩

theorem Accounted.loadActionItemsDone {w : PageWorld} (h : Accounted (w.spawn .actionItems))
    (items : Option (List ActionItem)) : Accounted (w.loadActionItemsDone items) := by
  apply h.finishFlag rfl rfl id rfl
  intro flag hne
  cases flag with
  | actionItems => exact absurd rfl hne
  | _ => exact ⟨rfl, fun _ hcleared => hcleared⟩

theorem Accounted.generateSummaryDone {w : PageWorld} (h : Accounted (w.spawn .config)) (found : Bool) :
    Accounted (w.generateSummaryDone found) := by
  cases found with
  | true =>
    apply h.finish rfl fun _ => rfl
    · intro flag hset
      cases flag with
      | generating => exact .inl ⟨rfl, rfl⟩
      | _ => exact .inr ⟨by simp [Flag.ClearedBy], rfl, fun _ hcleared => hcleared⟩
    · intro s hs hset
      cases s <;> exact hset
  | false =>
    apply h.finish rfl id
    · intro flag hset
      cases flag with
      | generating => cases hset
      | summary => cases hset
      | _ => exact .inr ⟨by simp [Flag.ClearedBy], rfl, fun _ hcleared => hcleared⟩
    · intro s hs hset
      cases s <;> exact hset

theorem Accounted.loadActionItems {w : PageWorld} (h : Accounted w) : Accounted w.loadActionItems := by
  rw [PageWorld.loadActionItems]
  split_ifs
  · exact h.spawn rfl
  · apply h.clear rfl id
    · intro flag hset
      cases flag with
      | actionItems => cases hset
      | _ => exact ⟨rfl, fun _ hcleared => hcleared⟩
    · intro s hset
      cases s <;> exact hset

theorem Accounted.loadCalendarEvent {w : PageWorld} (h : Accounted w) :
    Accounted w.loadCalendarEvent := by
  rw [PageWorld.loadCalendarEvent]
  split_ifs
  · exact h.spawn rfl
  · apply h.clear rfl id
    · intro flag hset
      cases flag with
      | calendarEvent => cases hset
      | _ => exact ⟨rfl, fun _ hcleared => hcleared⟩
    · intro s hset
      cases s <;> exact hset

theorem Accounted.saveSummaryDone {w : PageWorld} {markdown : String}
    (h : Accounted (w.spawn (.saveSummary markdown))) (saved : Bool) :
    Accounted (w.saveSummaryDone w.page.generation markdown saved) := by
  have hcleared : Accounted (w.update ({ · with savingSummary := false })) := by
    apply h.finishFlag rfl rfl id rfl
    intro flag hne
    cases flag with
    | savingSummary => exact absurd rfl hne
    | _ => exact ⟨rfl, fun _ hcleared => hcleared⟩
  rw [PageWorld.saveSummaryDone, guarded_of_eq]
  · split_ifs
    · exact hcleared.keep rfl
    · exact hcleared
  · rfl

theorem Accounted.openRetranscribeDone {w : PageWorld} (h : Accounted w)
    (models : Option (List (String × Bool))) : Accounted (w.openRetranscribeDone models) := by
  rcases models with _ | models
  · exact h
  · rw [PageWorld.openRetranscribeDone]
    apply h.keep
    simp only
    split_ifs <;> rfl

theorem Accounted.retranscribeDone {w : PageWorld} {id : String}
    (h : Accounted (w.spawn (.retranscription id))) {result : PageWorld.Retranscribed}
    (hresult : result ≠ .refused) : Accounted (w.retranscribeDone id result) := by
  unfold PageWorld.retranscribeDone
  split_ifs with hid
  · apply h.drop
    intro flag
    cases flag <;> simp_all [Flag.ClearedBy]
  · cases result with
    | refused => exact absurd rfl hresult
    | complete =>
      apply Accounted.spawnRead _ rfl
      apply h.finishFlag rfl rfl (fun hpolling => hpolling) rfl
      intro flag hne
      cases flag with
      | retranscription => exact absurd rfl hne
      | _ => exact ⟨rfl, fun _ hcleared => hcleared⟩
    | failed e =>
      apply h.finishFlag rfl rfl (fun hpolling => hpolling) rfl
      intro flag hne
      cases flag with
      | retranscription => exact absurd rfl hne
      | _ => exact ⟨rfl, fun _ hcleared => hcleared⟩

theorem Accounted.openCalendarPickerDone {w : PageWorld} (h : Accounted w) (anchor : ℤ)
    (events : Except String (List CalendarEvent)) : Accounted (w.openCalendarPickerDone anchor events) := by
  unfold PageWorld.openCalendarPickerDone
  split_ifs
  · cases events <;> exact h.keep rfl
  · exact h

theorem Accounted.pickCalendarEventDone {w : PageWorld} (h : Accounted (w.spawn .pickEvent))
    (linked : Bool) : Accounted (w.pickCalendarEventDone linked) := by
  have hcleared : Accounted (w.update ({ · with calendarMutating := false })) := by
    apply h.finishFlag rfl rfl id rfl
    intro flag hne
    cases flag with
    | calendarMutating => exact absurd rfl hne
    | _ => exact ⟨rfl, fun _ hcleared => hcleared⟩
  rw [PageWorld.pickCalendarEventDone]
  split_ifs
  · apply Accounted.loadCalendarEvent
    exact hcleared.keep rfl
  · exact hcleared

theorem Accounted.toggleSpeakerEditDone {w : PageWorld} {key : String}
    (h : Accounted (w.spawn (.profiles key))) (profiles : Option (List VoiceProfile)) :
    Accounted (w.toggleSpeakerEditDone key profiles) := by
  rw [PageWorld.toggleSpeakerEditDone]
  split
  next hedit =>
    apply h.drop
    intro flag
    cases flag <;> simp_all [Flag.ClearedBy]
  next edit hedit =>
    split_ifs with hkey
    · apply h.drop
      intro flag
      cases flag <;> simp_all [Flag.ClearedBy]
      exact fun hsame => hkey hsame.symm
    · rcases profiles with _ | profiles
      all_goals
        apply h.finish rfl id
        · intro flag hset
          cases flag with
          | profiles => cases hset
          | savingSpeaker =>
            right
            refine ⟨by simp [Flag.ClearedBy], by simp [Flag.isSet, hedit], ?_⟩
            rintro job ⟨edit', hedit', rfl⟩
            obtain rfl := Option.some.inj (hedit'.symm.trans hedit)
            exact ⟨_, rfl, rfl⟩
          | _ => exact .inr ⟨by simp [Flag.ClearedBy], rfl, fun _ hcleared => hcleared⟩
        · intro s hs hset
          cases s <;> exact hset

/-- An edit of a speaker that is not saved keeps its key. -/
theorem sameFlag_failedEdit {p p' : Page} {key e : String}
    (h : p'.speakerEdit = p.speakerEdit.map fun edit =>
      if edit.key = key then { edit with saving := false, error := some e } else edit) :
    SameFlag p p' .profiles ∧
      (Flag.isSet p' .savingSpeaker = true →
        ¬Flag.ClearedBy p (.saveSpeaker key) .savingSpeaker ∧ SameFlag p p' .savingSpeaker) := by
  rcases hedit : p.speakerEdit with _ | edit
  · simp [SameFlag, Flag.isSet, Flag.ClearedBy, h, hedit]
  · by_cases hkey : edit.key = key
    · simp [SameFlag, Flag.isSet, Flag.ClearedBy, h, hedit, hkey]
    · simp [SameFlag, Flag.isSet, Flag.ClearedBy, h, hedit, hkey, Ne.symm hkey]

theorem Accounted.saveSpeakerEditDone {w : PageWorld} {key : String}
    (h : Accounted (w.spawn (.saveSpeaker key))) (outcome : Except String Unit) :
    Accounted (w.saveSpeakerEditDone key outcome) := by
  rcases outcome with e | _
  · rw [PageWorld.saveSpeakerEditDone]
    apply h.finish rfl id
    · intro flag hset
      cases flag with
      | profiles => exact .inr ⟨by simp [Flag.ClearedBy], (sameFlag_failedEdit rfl).1⟩
      | savingSpeaker => exact .inr ((sameFlag_failedEdit rfl).2 hset)
      | _ => exact .inr ⟨by simp [Flag.ClearedBy], rfl, fun _ hcleared => hcleared⟩
    · intro s hs hset
      cases s <;> exact hset
  · apply Accounted.spawnRead _ rfl
    apply h.finish rfl id
    · intro flag hset
      cases flag with
      | profiles => cases hset
      | savingSpeaker => cases hset
      | _ => exact .inr ⟨by simp [Flag.ClearedBy], rfl, fun _ hcleared => hcleared⟩
    · intro s hs hset
      cases s <;> exact hset

theorem Accounted.playSegmentDone {w : PageWorld} {segment : String}
    (h : Accounted (w.spawn (.clip segment))) (plays : Bool) :
    Accounted (w.playSegmentDone segment plays) := by
  rw [PageWorld.playSegmentDone]
  split
  · apply h.drop
    intro flag
    cases flag <;> simp_all [Flag.ClearedBy]
  · apply h.finishFlag rfl rfl id rfl
    intro flag hne
    cases flag with
    | clip => exact absurd rfl hne
    | _ => exact ⟨rfl, fun _ hcleared => hcleared⟩

theorem Accounted.saveNoteDone {w : PageWorld} (h : Accounted (w.spawn .saveNote))
    (created : Option MeetingNote) : Accounted (w.saveNoteDone w.page.generation created) := by
  have hcleared : Accounted (w.update ({ · with notesSaving := false })) := by
    apply h.finishFlag rfl rfl id rfl
    intro flag hne
    cases flag with
    | savingNote => exact absurd rfl hne
    | _ => exact ⟨rfl, fun _ hcleared => hcleared⟩
  rw [PageWorld.saveNoteDone, guarded_of_eq]
  · rcases created with _ | note
    · exact hcleared
    · exact hcleared.keep rfl
  · rfl

theorem Accounted.deleteNoteDone {w : PageWorld} (h : Accounted w) (removed : Option MeetingNote)
    (deleted : Bool) : Accounted (w.deleteNoteDone removed deleted) := by
  rcases removed with _ | note
  · exact h
  · rw [PageWorld.deleteNoteDone]
    split_ifs
    · exact h
    · exact h.keep rfl

theorem Accounted.extractActionItemsDone {w : PageWorld} (h : Accounted (w.spawn .extract))
    (extracted : Bool) : Accounted (w.extractActionItemsDone w.page.generation extracted) := by
  have hcleared : Accounted (w.update ({ · with aiExtracting := false })) := by
    apply h.finishFlag rfl rfl id rfl
    intro flag hne
    cases flag with
    | extracting => exact absurd rfl hne
    | _ => exact ⟨rfl, fun _ hcleared => hcleared⟩
  rw [PageWorld.extractActionItemsDone, guarded_of_eq]
  · split_ifs
    · exact hcleared.loadActionItems
    · exact hcleared
  · rfl

theorem Accounted.changeItemsDone {w : PageWorld} (h : Accounted w) (changed : Bool) :
    Accounted (w.changeItemsDone changed) := by
  cases changed with
  | true => exact h
  | false => exact h.loadActionItems

theorem Accounted.saveNewActionItemDone {w : PageWorld} (h : Accounted w) (created : Bool) :
    Accounted (w.saveNewActionItemDone created) := by
  cases created with
  | true => exact h.loadActionItems
  | false => exact h

/-- A task of this load that is done keeps the account. -/
theorem Accounted.complete {w : PageWorld} {job : Job} (h : Accounted (w.spawn job))
    (formats : PageFormats) (answer : job.Answer) (hanswer : ¬job.Refused answer) :
    Accounted (job.complete formats w.page.generation answer w) := by
  cases job with
  | meeting =>
    rw [Job.complete, guarded_of_eq rfl]
    exact h.loadDone formats answer.1 answer.2
  | summary =>
    rw [Job.complete, guarded_of_eq rfl]
    exact h.refreshSummaryDone formats answer
  | calendarEvent =>
    rw [Job.complete, guarded_of_eq rfl]
    exact h.loadCalendarEventDone answer
  | actionItems =>
    rw [Job.complete, guarded_of_eq rfl]
    exact h.loadActionItemsDone answer
  | config =>
    rw [Job.complete, guarded_of_eq rfl]
    exact h.generateSummaryDone answer
  | saveSummary markdown => exact h.saveSummaryDone answer
  | retranscription id => exact h.retranscribeDone hanswer
  | pickEvent =>
    rw [Job.complete, guarded_of_eq rfl]
    exact h.pickCalendarEventDone answer
  | profiles key =>
    rw [Job.complete, guarded_of_eq rfl]
    exact h.toggleSpeakerEditDone answer
  | saveSpeaker key =>
    rw [Job.complete, guarded_of_eq rfl]
    exact h.saveSpeakerEditDone answer
  | clip segment =>
    rw [Job.complete, guarded_of_eq rfl]
    exact h.playSegmentDone answer
  | saveNote => exact h.saveNoteDone answer
  | extract => exact h.extractActionItemsDone answer
  -- the others have no flag
  | notes =>
    rw [Job.complete, guarded_of_eq rfl]
    exact (h.drop_of_flag rfl).keep rfl
  | confidence =>
    rw [Job.complete, guarded_of_eq rfl]
    exact (h.drop_of_flag rfl).keep rfl
  | transcript =>
    rw [Job.complete, guarded_of_eq rfl]
    exact (h.drop_of_flag rfl).keep rfl
  | retranscribeModels =>
    rw [Job.complete, guarded_of_eq rfl]
    exact (h.drop_of_flag rfl).openRetranscribeDone answer
  | pickerEvents anchor =>
    rw [Job.complete, guarded_of_eq rfl]
    exact (h.drop_of_flag rfl).openCalendarPickerDone anchor answer
  | deleteNote removed =>
    rw [Job.complete, guarded_of_eq rfl]
    exact (h.drop_of_flag rfl).deleteNoteDone removed answer
  | changeItem =>
    rw [Job.complete, guarded_of_eq rfl]
    exact (h.drop_of_flag rfl).changeItemsDone answer
  | newItem =>
    rw [Job.complete, guarded_of_eq rfl]
    exact (h.drop_of_flag rfl).saveNewActionItemDone answer

theorem update_of_eq {w : PageWorld} {f : Page → Page} (h : f w.page = w.page) : w.update f = w := by
  rw [PageWorld.update, h]

/-- A completion of an earlier load that finds nothing to clear does nothing. -/
theorem complete_of_stale {w : PageWorld} {generation : ℕ} (h : generation ≠ w.page.generation)
    (formats : PageFormats) {job : Job} (answer : job.Answer) (hjob : job.FindsNothing w.page) :
    job.complete formats generation answer w = w := by
  cases job with
  | saveSummary markdown =>
    have hunset : w.page.savingSummary = false := hjob
    have hdone : ∀ saved, w.saveSummaryDone generation markdown saved = w := by
      intro saved
      rw [PageWorld.saveSummaryDone, update_of_eq (by rw [← hunset]), guarded_of_ne h]
    exact hdone answer
  | saveNote =>
    have hunset : w.page.notesSaving = false := hjob
    have hdone : ∀ created, w.saveNoteDone generation created = w := by
      intro created
      rw [PageWorld.saveNoteDone, update_of_eq (by rw [← hunset]), guarded_of_ne h]
    exact hdone answer
  | extract =>
    have hunset : w.page.aiExtracting = false := hjob
    have hdone : ∀ extracted, w.extractActionItemsDone generation extracted = w := by
      intro extracted
      rw [PageWorld.extractActionItemsDone, update_of_eq (by rw [← hunset]), guarded_of_ne h]
    exact hdone answer
  | retranscription id => exact if_pos hjob
  | _ => rw [Job.complete, guarded_of_ne h]

/-! ## Steps and runs -/

/-- The tasks of a load. -/
def loadJobs : List Job := [.meeting, .summary, .calendarEvent, .notes, .actionItems, .confidence]

/-- A load with a database. -/
theorem load_eq {w : PageWorld} (hpool : w.pool = true) (id : String) :
    w.load id =
      ⟨PageWorld.resetPage id w.page, true, true,
        w.pending ++ loadJobs.map (Pending.mk (w.page.generation + 1))⟩ := by
  simp [loadJobs, PageWorld.load, PageWorld.update, PageWorld.resetPage, PageWorld.spawn, PageWorld.spawnRead,
    PageWorld.loadCalendarEvent, PageWorld.loadActionItems, hpool]

theorem Accounted.load {w : PageWorld} (h : Accounted w) (hpool : w.pool = true)
    (hmutating : w.page.calendarMutating = false) (id : String) : Accounted (w.load id) := by
  rw [load_eq hpool]
  have hpast : ∀ t ∈ w.pending, t.generation ≠ w.page.generation + 1 := by
    intro t ht
    have := h.past t ht
    omega
  refine ⟨?_, fun _ => rfl, ?_, ?_⟩
  · intro t ht
    obtain ht | ht := List.mem_append.mp ht
    · exact (h.past t ht).trans (Nat.le_succ _)
    · obtain ⟨job, -, rfl⟩ := List.mem_map.mp ht
      exact le_rfl
  · intro flag hset
    have howned : ∀ job ∈ loadJobs, flag.ClearedBy (PageWorld.resetPage id w.page) job →
        Owned ⟨PageWorld.resetPage id w.page, true, true,
          w.pending ++ loadJobs.map (Pending.mk (w.page.generation + 1))⟩ flag := by
      intro job hjob hcleared
      exact .inr ⟨⟨w.page.generation + 1, job⟩, List.mem_append_right _ (List.mem_map_of_mem hjob), rfl,
        hcleared⟩
    cases flag with
    | transcripts => exact howned .meeting (by simp [loadJobs]) rfl
    | summary => exact howned .summary (by simp [loadJobs]) rfl
    | calendarEvent => exact howned .calendarEvent (by simp [loadJobs]) rfl
    | actionItems => exact howned .actionItems (by simp [loadJobs]) rfl
    | calendarMutating => exact absurd hset (by simp [Flag.isSet, PageWorld.resetPage, hmutating])
    | _ => cases hset
  · intro _ s
    refine (Nat.le_zero.mpr ?_).trans (Nat.zero_le _)
    rw [PageWorld.submissions, List.countP_eq_zero]
    intro t ht
    obtain ht | ht := List.mem_append.mp ht
    · simp [PageWorld.resetPage, hpast t ht]
    · obtain ⟨job, hjob, rfl⟩ := List.mem_map.mp ht
      simp only [loadJobs, List.mem_cons, List.not_mem_nil, or_false] at hjob
      rcases hjob with rfl | rfl | rfl | rfl | rfl | rfl <;> simp [Job.submission]

theorem Accounted.hide {w : PageWorld} (h : Accounted w) : Accounted { w with shown := false } :=
  ⟨h.past, nofun, h.owned, nofun⟩

theorem Accounted.leave {w : PageWorld} (h : Accounted w) (leaving : Leaving) :
    Accounted (w.leave leaving) := by
  cases leaving with
  | goes => exact h.hide
  | discards =>
    rw [PageWorld.leave, PageWorld.editSummary]
    exact h.hide.keep rfl
  | saves markdown => exact h.hide.saveSummary markdown nofun

theorem Accounted.pollTick {w : PageWorld} (h : Accounted w) : Accounted w.pollTick := by
  have hread : Accounted (w.spawnRead .summary) := h.spawnRead rfl
  refine ⟨hread.past, hread.pool, ?_, hread.single⟩
  intro flag hset
  by_cases hflag : flag = .generating
  · subst hflag
    refine .inl ⟨rfl, ?_⟩
    exact hset
  · obtain hpolled | howned := hread.owned flag (by cases flag <;> exact hset)
    · exact absurd hpolled.1 hflag
    · right
      obtain ⟨t, ht, hgen, hcleared⟩ := howned
      exact ⟨t, ht, hgen, by cases flag <;> exact hcleared⟩

/-- A task of this load is not pending any more. -/
theorem Accounted.take {w : PageWorld} {before after : List Pending} {t : Pending} (h : Accounted w)
    (hpending : w.pending = before ++ t :: after) (ht : t.generation = w.page.generation) :
    Accounted (PageWorld.spawn { w with pending := before ++ after } t.job) := by
  have hperm : (before ++ after ++ [Pending.mk w.page.generation t.job]).Perm w.pending := by
    rw [hpending, ← ht]
    exact (List.perm_append_singleton t (before ++ after)).trans List.perm_middle.symm
  refine ⟨fun t' ht' => h.past t' (hperm.mem_iff.mp ht'), h.pool, ?_, ?_⟩
  · intro flag hset
    obtain hpolled | ⟨t', ht', hgen, hcleared⟩ := h.owned flag hset
    · exact .inl hpolled
    · exact .inr ⟨t', hperm.mem_iff.mpr ht', hgen, hcleared⟩
  · intro hshown s
    refine le_of_eq_of_le ?_ (h.single hshown s)
    exact hperm.countP_eq _

/-- A task of an earlier load is not pending any more. -/
theorem Accounted.without {w : PageWorld} {before after : List Pending} {t : Pending} (h : Accounted w)
    (hpending : w.pending = before ++ t :: after) (ht : t.generation ≠ w.page.generation) :
    Accounted { w with pending := before ++ after } := by
  have hsub : (before ++ after).Sublist w.pending := by
    rw [hpending]
    exact (List.sublist_cons_self t after).append_left before
  refine ⟨fun t' ht' => h.past t' (hsub.subset ht'), h.pool, ?_, ?_⟩
  · intro flag hset
    obtain hpolled | ⟨t', ht', hgen, hcleared⟩ := h.owned flag hset
    · exact .inl hpolled
    · right
      refine ⟨t', ?_, hgen, hcleared⟩
      rw [hpending, List.mem_append, List.mem_cons] at ht'
      rw [List.mem_append]
      obtain hbefore | rfl | hafter := ht'
      · exact .inl hbefore
      · exact absurd hgen ht
      · exact .inr hafter
  · intro hshown s
    exact hsub.countP_le.trans (h.single hshown s)

theorem Accounted.onActionItemsExtracted {w : PageWorld} (h : Accounted w) (id : String) :
    Accounted (w.onActionItemsExtracted id) := by
  rw [PageWorld.onActionItemsExtracted]
  split_ifs
  · exact h
  · apply Accounted.loadActionItems
    apply h.clear rfl fun hpolling => hpolling
    · intro flag hset
      cases flag with
      | extracting => cases hset
      | _ => exact ⟨rfl, fun _ hcleared => hcleared⟩
    · intro s hset
      cases s <;> exact hset

/-- **One step** keeps the account. -/
theorem Accounted.step {formats : PageFormats} {reduceMotion : Bool} {act : PageAct} {w w' : PageWorld}
    (h : Accounted w) (hstep : PageStep formats reduceMotion act w w') (hcareful : CarefulAct w act) :
    Accounted w' := by
  cases hstep with
  | acts w act hshown henabled => exact h.perform hshown act henabled
  | loads w id => exact h.load hcareful.1 hcareful.2 id
  | leaves w leaving => exact h.leave leaving
  | opens w => exact ⟨h.past, fun _ => rfl, h.owned, h.single⟩
  | completes w before after t answer hpending =>
    rw [CarefulAct] at hcareful
    by_cases ht : t.generation = w.page.generation
    · rw [if_pos ht] at hcareful
      rw [ht]
      exact (h.take hpending ht).complete formats answer hcareful
    · rw [if_neg ht] at hcareful
      rw [complete_of_stale (w := { w with pending := before ++ after }) ht formats answer hcareful]
      exact h.without hpending ht
  | streams w delta =>
    obtain ⟨hphase, hpolling⟩ := phase_onSummaryStream reduceMotion w.page.summary delta
    apply h.keep
    simp only [Page.busy, hphase, hpolling]
  | polls w hpolling => exact h.pollTick
  | reveals w hrevealing => exact h.keep rfl
  | progresses w percentage message => exact h.keep rfl
  | extracts w since id hpool => exact h.onActionItemsExtracted id
  | playbackEnds w since => exact h.stopSegmentPlayback

theorem accounted_made (pool : Bool) : Accounted (.made pool) := by
  refine ⟨nofun, nofun, ?_, nofun⟩
  intro flag hset
  cases flag <;> cases hset

theorem Accounted.of_reaches {formats : PageFormats} {reduceMotion pool : Bool} {w : PageWorld}
    (hreach : PageReaches formats reduceMotion pool w) : Accounted w := by
  induction hreach with
  | refl => exact accounted_made pool
  | tail _ hcareful ih =>
    obtain ⟨act, hstep, hcareful⟩ := hcareful
    exact ih.step hstep hcareful

/-- A completion of an earlier load leaves the page as it is. -/
theorem page_of_stale {formats : PageFormats} {reduceMotion : Bool} {act : PageAct} {w w' : PageWorld}
    (hstep : PageStep formats reduceMotion act w w') (hstale : act.Stale w.page)
    (hcareful : CarefulAct w act) : w'.page = w.page := by
  cases hstep with
  | completes w before after t answer hpending =>
    rw [CarefulAct, if_neg hstale] at hcareful
    rw [complete_of_stale (w := { w with pending := before ++ after }) hstale formats answer hcareful]
  | extracts w since id hpool =>
    rw [PageWorld.onActionItemsExtracted]
    split_ifs with hid
    · rfl
    · obtain hsince | hother | hunset := hcareful
      · exact absurd hsince hstale
      · exact absurd hother hid
      · rw [update_of_eq (by rw [← hunset]), PageWorld.loadActionItems]
        simp_all
  | playbackEnds w since =>
    obtain hsince | ⟨hplaying, hloading⟩ := hcareful
    · exact absurd hsince hstale
    · rw [PageWorld.stopSegmentPlayback, update_page]
      nth_rewrite 1 [← hplaying]
      rw [← hloading]
  | _ => exact hstale.elim

/-- **Completions of an earlier load are inert**, in every such run: they change nothing on the page; once
the tasks of this load are done, no flag is set; and on a page that is shown, nothing is submitted twice at a
time, and not without its flag. -/
theorem inert_of_reaches {formats : PageFormats} {reduceMotion pool : Bool} {w : PageWorld}
    (hreach : PageReaches formats reduceMotion pool w) :
    (∀ act w', PageStep formats reduceMotion act w w' → act.Stale w.page → CarefulAct w act →
        w'.page = w.page) ∧
      ((∀ t ∈ w.pending, t.generation ≠ w.page.generation) → w.page.summary.polling = false →
        ∀ flag : Flag, flag.isSet w.page = false) ∧
      (w.shown = true → ∀ s : Submission, w.submissions s ≤ (s.flag.isSet w.page).toNat) := by
  have haccounted := Accounted.of_reaches hreach
  refine ⟨fun act w' => page_of_stale, ?_, haccounted.single⟩
  intro hdone hpolling flag
  by_contra hset
  obtain ⟨-, hpolled⟩ | ⟨t, ht, hgen, -⟩ := haccounted.owned flag (Bool.eq_true_of_not_eq_false hset)
  · exact absurd (hpolled.symm.trans hpolling) nofun
  · exact hdone t ht hgen

/-! ## Two meetings and their notes -/

/-- No time is read. -/
def timelessFormats : PageFormats := ⟨onlyNotes, fun _ => none⟩

/-- The first meeting is opened. -/
def firstMeeting : PageWorld := (PageWorld.made true).load "meeting-1"

/-- A note is saved in the first meeting, and the second one is opened. -/
def secondMeeting : PageWorld := ((firstMeeting.composeNote true).saveNote "First").load "meeting-2"

/-- A note is saved in the second meeting too. -/
def secondNote : PageWorld := (secondMeeting.composeNote true).saveNote "Second"

theorem reaches_secondMeeting : PageReaches timelessFormats false true secondMeeting := by
  have hopen : CarefulPageStep timelessFormats false (.made true) firstMeeting :=
    ⟨.loads "meeting-1", .loads _ _, rfl, rfl⟩
  have hcompose : CarefulPageStep timelessFormats false firstMeeting (firstMeeting.composeNote true) :=
    ⟨.acts (.composeNote true), .acts _ _ rfl rfl, trivial⟩
  have hsave : CarefulPageStep timelessFormats false (firstMeeting.composeNote true)
      ((firstMeeting.composeNote true).saveNote "First") :=
    ⟨.acts (.saveNote "First"), .acts _ _ rfl rfl, trivial⟩
  have hnext : CarefulPageStep timelessFormats false ((firstMeeting.composeNote true).saveNote "First")
      secondMeeting := ⟨.loads "meeting-2", .loads _ _, rfl, rfl⟩
  exact (((Relation.ReflTransGen.single hopen).tail hcompose).tail hsave).tail hnext

/-- The first note is saved, after the second meeting was opened. -/
theorem step_firstNote (w : PageWorld) (after : List Pending)
    (hpending : w.pending = loadJobs.map (Pending.mk 1) ++ ⟨1, .saveNote⟩ :: after) :
    PageStep timelessFormats false
      (.completes (loadJobs.map (Pending.mk 1)) ⟨1, .saveNote⟩ after (none : Option MeetingNote)) w
      (PageWorld.saveNoteDone 1 none { w with pending := loadJobs.map (Pending.mk 1) ++ after }) :=
  .completes w (loadJobs.map (Pending.mk 1)) after ⟨1, .saveNote⟩ (none : Option MeetingNote) hpending

/-- If no note is saved in the second meeting, the page stays as it is. -/
theorem inert_secondMeeting :
    (PageWorld.saveNoteDone 1 none { secondMeeting with
      pending := loadJobs.map (Pending.mk 1) ++ loadJobs.map (Pending.mk 2) }).page = secondMeeting.page :=
  (inert_of_reaches reaches_secondMeeting).1 _ _
    (step_firstNote secondMeeting (loadJobs.map (Pending.mk 2)) rfl) (by decide : (1 : ℕ) ≠ 2) rfl

/-- If one is, the page says that it is not saved any more. -/
theorem not_inert_secondNote :
    ¬∀ w, Relation.ReflTransGen (fun v v' => ∃ act, PageStep timelessFormats false act v v')
        (PageWorld.made true) w →
      (∀ act w', PageStep timelessFormats false act w w' → act.Stale w.page → w'.page = w.page) ∧
        ((∀ t ∈ w.pending, t.generation ≠ w.page.generation) → w.page.summary.polling = false →
          ∀ flag : Flag, flag.isSet w.page = false) ∧
        (w.shown = true → ∀ s : Submission, w.submissions s ≤ (s.flag.isSet w.page).toNat) := by
  intro hinert
  have hreach : Relation.ReflTransGen (fun v v' => ∃ act, PageStep timelessFormats false act v v')
      (PageWorld.made true) secondNote := by
    have hany : ∀ v v', CarefulPageStep timelessFormats false v v' →
        ∃ act, PageStep timelessFormats false act v v' := fun v v' hcareful => hcareful.imp fun act h => h.1
    have hcompose : ∃ act, PageStep timelessFormats false act secondMeeting
        (secondMeeting.composeNote true) := ⟨.acts (.composeNote true), .acts _ _ rfl rfl⟩
    have hsave : ∃ act, PageStep timelessFormats false act (secondMeeting.composeNote true) secondNote :=
      ⟨.acts (.saveNote "Second"), .acts _ _ rfl rfl⟩
    exact ((Relation.ReflTransGen.mono hany _ _ reaches_secondMeeting).tail hcompose).tail hsave
  have hpage := (hinert secondNote hreach).1 _ _
    (step_firstNote secondNote (loadJobs.map (Pending.mk 2) ++ [⟨2, .saveNote⟩]) rfl)
    (by decide : (1 : ℕ) ≠ 2)
  exact absurd (congrArg Page.notesSaving hpage) nofun

end MeetingPage

end MeetilyLocal
