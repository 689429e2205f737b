import MeetilyLocal.Calendar.Repository
import MeetilyLocal.Library.OrderBy
import Mathlib.Algebra.Order.Field.Rat
import Mathlib.Algebra.Order.Field.Basic
import Mathlib.Data.String.Basic
import Mathlib.Tactic.NormNum

/-!
# Meeting reminders

The loop that reminds of meetings: `due_reminders` and `reminder_tick` of `notifications.rs`, and
the query `list_events_in_range` under it. A tick reads the events of the next minutes and reminds
of those that have come within a threshold; the ids of the events it has reminded of are kept.

A refresh of a calendar (`replace_events`) stores its events with new ids, so that the loop reminds
again of what it has reminded of before. Where no such event is still to come, every occurrence is
reminded of once, at the first tick at which it is due (`oneEach_of_undisturbed`).

Times are nanoseconds. How they are written and read is given from outside.
-/

namespace MeetilyLocal

open CalendarRepository

/-- How the columns of events are written and read. -/
structure CalendarCodec extends CalendarFormats ℤ where
  /-- `DateTime::parse_from_rfc3339`, in UTC -/
  parseFromRfc3339 : String → Option ℤ
  /-- `serde_json::from_str` -/
  attendeesFromStr : String → Option (List Attendee)

/-- An event as it is read. -/
structure CalendarEvent : Type where
  /-- primary key -/
  id : String
  /-- the source it comes from -/
  sourceId : String
  /-- `UID` -/
  icsUid : String
  /-- which occurrence it is -/
  recurrenceId : Option String
  /-- title -/
  summary : Option String
  /-- description -/
  description : Option String
  /-- location -/
  location : Option String
  /-- name of the organizer -/
  organizerName : Option String
  /-- address of the organizer -/
  organizerEmail : Option String
  /-- when it starts -/
  startAt : ℤ
  /-- when it ends -/
  endAt : ℤ
  /-- it takes whole days -/
  isAllDay : Bool
  /-- who attends -/
  attendees : List Attendee

namespace CalendarRepository

/-- `CalendarEvent::try_from` -/
def tryFrom (codec : CalendarCodec) (row : CalendarEventRow) : Option CalendarEvent := do
  let startAt ← codec.parseFromRfc3339 row.startAt
  let endAt ← codec.parseFromRfc3339 row.endAt
  let attendees ← codec.attendeesFromStr row.attendeesJson
  return {
    id := row.id
    sourceId := row.sourceId
    icsUid := row.icsUid
    recurrenceId := row.recurrenceId
    summary := row.summary
    description := row.description
    location := row.location
    organizerName := row.organizerName
    organizerEmail := row.organizerEmail
    startAt := startAt
    endAt := endAt
    isAllDay := row.isAllDay != 0
    attendees := attendees }

/-- `WHERE start_at < ? AND end_at > ?`, on the columns as texts -/
def inRange (codec : CalendarCodec) (since til : ℤ) (row : CalendarEventRow) : Bool :=
  row.startAt < codec.toRfc3339 til && codec.toRfc3339 since < row.endAt

/-- `list_events_in_range`: rows that cannot be read are dropped. -/
def listEventsInRange (codec : CalendarCodec) (ok : Bool) (order : Arrangement CalendarEventRow)
    (db : CalendarDatabase) (since til : ℤ) : Except String (List CalendarEvent) :=
  if ok then
    .ok ((orderBy (·.startAt) order (db.events.filter (inRange codec since til))).filterMap
      (tryFrom codec))
  else .error TranscriptsRepository.sqlError

end CalendarRepository

/-! ## A tick -/

/-- One upcoming calendar event, trimmed to what the reminder loop needs. -/
structure UpcomingEvent : Type where
  /-- primary key -/
  id : String
  /-- title -/
  title : Option String
  /-- when it starts -/
  startAt : ℤ

/-- A reminder that is due. -/
structure DueReminder : Type where
  /-- the event -/
  id : String
  /-- the threshold it has come within, in minutes -/
  minutes : UInt64
  /-- title of the event -/
  title : Option String

/-- The settings that a tick reads. -/
structure ReminderSettings : Type where
  /-- `show_meeting_reminders` -/
  showMeetingReminders : Bool
  /-- `meeting_reminder_minutes` -/
  meetingReminderMinutes : List UInt64

/-- `TimeDelta::num_seconds`: the fraction of a second is cut off. -/
def numSeconds (d : ℤ) : ℤ := d.tdiv 1000000000

/-- The reminder of one event, if it is due. The minutes are a rational number: the `f64` in their
place compares with a threshold in the same way, because a number of seconds that is not one of
whole minutes is further from one than the rounding of the quotient. -/
def dueReminder (thresholds : List UInt64) (now : ℤ) (alreadyNotified : List String)
    (event : UpcomingEvent) : Option DueReminder :=
  if event.id ∈ alreadyNotified then none
  else
    let minutesUntil : ℚ := numSeconds (event.startAt - now) / 60
    if minutesUntil < 0 then none
    else
      (thresholds.find? fun t => minutesUntil ≤ t.toNat).map fun t => ⟨event.id, t, event.title⟩

/-- Which of `events` are due a reminder right now. -/
def dueReminders (events : List UpcomingEvent) (now : ℤ) (reminderMinutes : List UInt64)
    (alreadyNotified : List String) : List DueReminder :=
  if reminderMinutes.isEmpty then []
  else
    let thresholds := reminderMinutes.mergeSort fun a b => b ≤ a
    events.filterMap (dueReminder thresholds now alreadyNotified)

/-- The largest threshold. -/
def maxMinutes (reminderMinutes : List UInt64) : ℕ :=
  (reminderMinutes.map UInt64.toNat).max?.getD 0

/-- `DateTime::<Utc>::MIN_UTC` -/
def minUtc : ℤ := -8334601228800000000000

/-- `DateTime::<Utc>::MAX_UTC` -/
def maxUtc : ℤ := 8210266876799999999999

/-- `now + chrono::Duration::minutes(max_minutes as i64 + 1)`; none where it panics. -/
def horizon (now : ℤ) (minutes : ℕ) : Option ℤ :=
  let seconds := ((minutes : ℤ) + 1).bmod (2 ^ 64) * 60
  let til := now + seconds * 1000000000
  if seconds.natAbs ≤ 9223372036854775 ∧ minUtc ≤ til ∧ til ≤ maxUtc then some til else none

/-- `reminder_tick`: the reminders it shows, whose events are notified then; none where it
panics. -/
def reminderTick (codec : CalendarCodec) (ok : Bool) (order : Arrangement CalendarEventRow)
    (settings : ReminderSettings) (now : ℤ) (db : CalendarDatabase)
    (alreadyNotified : List String) : Option (List DueReminder) :=
  if !settings.showMeetingReminders || settings.meetingReminderMinutes.isEmpty then some []
  else
    match horizon now (maxMinutes settings.meetingReminderMinutes) with
    | none => none
    | some til =>
      match listEventsInRange codec ok order db now til with
      | .error _ => some []
      | .ok events =>
        let upcoming := (events.filter fun e => !e.isAllDay && now < e.startAt).map fun e =>
          ⟨e.id, e.summary, e.startAt⟩
        some (dueReminders upcoming now settings.meetingReminderMinutes alreadyNotified)

/-- The text of a reminder. -/
def reminderText (reminder : DueReminder) : String × String :=
  ("Parley",
    match reminder.title with
    | some title =>
      "Meeting '" ++ title ++ "' starts in " ++ toString reminder.minutes ++ " minutes"
    | none => "Meeting starts in " ++ toString reminder.minutes ++ " minutes")

/-! ## Ticks and refreshes -/

/-- An occurrence of an event, with its start. -/
structure Occurrence : Type where
  /-- the source it comes from -/
  sourceId : String
  /-- `UID` -/
  icsUid : String
  /-- which occurrence it is -/
  recurrenceId : Option String
  /-- when it starts -/
  startAt : String
  deriving DecidableEq

/-- The occurrence that a row is of. -/
def occurrenceOf (row : CalendarEventRow) : Occurrence :=
  ⟨row.sourceId, row.icsUid, row.recurrenceId, row.startAt⟩

/-- The event of a row is due: it is timed, in the future, and within the largest threshold, in
whole seconds. -/
def IsDue (codec : CalendarCodec) (minutes : List UInt64) (now : ℤ) (row : CalendarEventRow) :
    Prop :=
  ∃ start, codec.parseFromRfc3339 row.startAt = some start ∧ row.isAllDay = 0 ∧ now < start ∧
    numSeconds (start - now) ≤ 60 * maxMinutes minutes

/-- What happens: a tick, or a refresh of a source. -/
inductive ReminderStep : Type where
  /-- a tick at a time, with the order in which events that start together are listed -/
  | tick : ℤ → Arrangement CalendarEventRow → ReminderStep
  /-- `replace_events` -/
  | refresh : SqlEnv → String → List (OccurrenceForUpsert ℤ) → ReminderStep

/-- The tables and the loop, and what became of each occurrence. -/
structure ReminderAccount : Type where
  /-- the tables -/
  db : CalendarDatabase
  /-- the events that were reminded of -/
  alreadyNotified : List String
  /-- the loop has not panicked -/
  alive : Bool
  /-- the occurrence was due at a tick -/
  wasDue : Occurrence → Prop
  /-- the number of its reminders -/
  reminders : Occurrence → ℕ
  /-- its source was refreshed since it was due -/
  refreshed : Occurrence → Prop

/-- The number of reminders of an occurrence. -/
def countFor (db : CalendarDatabase) (o : Occurrence) (sent : List DueReminder) : ℕ :=
  sent.countP fun r => db.events.any fun row => row.id == r.id && occurrenceOf row == o

namespace ReminderAccount

/-- A process starts. -/
def start (db : CalendarDatabase) : ReminderAccount :=
  ⟨db, [], true, fun _ => False, fun _ => 0, fun _ => False⟩

/-- What a tick shows. -/
def sent (codec : CalendarCodec) (settings : ReminderSettings) (a : ReminderAccount) (now : ℤ)
    (order : Arrangement CalendarEventRow) : Option (List DueReminder) :=
  if a.alive then reminderTick codec true order settings now a.db a.alreadyNotified else some []

/-- A step. -/
def step (codec : CalendarCodec) (settings : ReminderSettings) (a : ReminderAccount) :
    ReminderStep → ReminderAccount
  | .tick now order =>
    let sent := a.sent codec settings now order
    { a with
      alreadyNotified := a.alreadyNotified ++ (sent.getD []).map (·.id)
      alive := a.alive && sent.isSome
      wasDue := fun o => a.wasDue o ∨ ∃ row ∈ a.db.events, occurrenceOf row = o ∧
        IsDue codec settings.meetingReminderMinutes now row
      reminders := fun o => a.reminders o + countFor a.db o (sent.getD []) }
  | .refresh env sourceId occurrences =>
    match replaceEvents codec.toCalendarFormats env a.db sourceId occurrences with
    | (.ok _, db) =>
      { a with
        db := db
        refreshed := fun o => a.refreshed o ∨ a.wasDue o ∧ o.sourceId = sourceId }
    | (.error _, db) => { a with db := db }

/-- One reminder for each occurrence that was due, from the first tick at which it was, and none
for the others. -/
structure OneEach (a : ReminderAccount) : Prop where
  /-- an occurrence that was due -/
  due : ∀ o, a.wasDue o → a.reminders o = 1
  /-- one that was not -/
  others : ∀ o, ¬ a.wasDue o → a.reminders o = 0

end ReminderAccount

/-! ## What is assumed -/

/-- Times are read as they were written, their texts stand in their order, and attendees can be
read. -/
structure CalendarCodec.Lawful (codec : CalendarCodec) (times : ℤ → Prop) : Prop where
  /-- a time is read back -/
  parse : ∀ t, times t → codec.parseFromRfc3339 (codec.toRfc3339 t) = some t
  /-- the texts are in order -/
  order : ∀ s t, times s → times t → (codec.toRfc3339 s < codec.toRfc3339 t ↔ s < t)
  /-- attendees are read back -/
  attendees : ∀ l json, codec.attendeesToString l = .ok json →
    (codec.attendeesFromStr json).isSome
  /-- and so is the empty list -/
  noAttendees : (codec.attendeesFromStr "[]").isSome

/-- A row can be read. -/
structure Readable (codec : CalendarCodec) (times : ℤ → Prop) (row : CalendarEventRow) : Prop where
  /-- its start -/
  start : ∃ t, times t ∧ row.startAt = codec.toRfc3339 t
  /-- its end -/
  finish : ∃ t, times t ∧ row.endAt = codec.toRfc3339 t
  /-- its attendees -/
  attendees : (codec.attendeesFromStr row.attendeesJson).isSome

/-- The tables: the primary key and the unique index hold, and the rows can be read. -/
structure CalendarDatabase.Sound (codec : CalendarCodec) (times : ℤ → Prop)
    (db : CalendarDatabase) : Prop where
  /-- the primary key -/
  ids : (db.events.map (·.id)).Nodup
  /-- the index on source, UID and recurrence id -/
  keys : (db.events.map eventKey).Nodup
  /-- the rows -/
  readable : ∀ row ∈ db.events, Readable codec times row

/-- A step that meets an outside as documented: the ids of a refresh are new, and the times are
among those that are written in order. -/
def ReminderStep.Documented (times : ℤ → Prop) (a : ReminderAccount) : ReminderStep → Prop
  | .tick now _ => times now
  | .refresh env _ occurrences =>
    FreshIds env a.db occurrences.length ∧ (∀ j, env.uuid j ∉ a.alreadyNotified) ∧
      ∀ occ ∈ occurrences, times occ.startAt ∧ times occ.endAt

/-- A step that finds nothing it has reminded of before under another id: at a tick the largest
threshold reaches to a time that is written in order, and an event that is due ends after now and
was not stored again by a refresh since it was reminded of. -/
def ReminderStep.Undisturbed (codec : CalendarCodec) (settings : ReminderSettings)
    (times : ℤ → Prop) (a : ReminderAccount) : ReminderStep → Prop
  | .tick now _ =>
    let minutes := maxMinutes settings.meetingReminderMinutes
    (horizon now minutes = some (now + (minutes + 1) * 60000000000) ∧
        times (now + (minutes + 1) * 60000000000)) ∧
      ∀ row ∈ a.db.events, IsDue codec settings.meetingReminderMinutes now row →
        (∃ finish, codec.parseFromRfc3339 row.endAt = some finish ∧ now < finish) ∧
          ¬ a.refreshed (occurrenceOf row)
  | .refresh _ _ _ => True

/-- Every step of a run is one of these. -/
def UndisturbedSteps (codec : CalendarCodec) (settings : ReminderSettings) (times : ℤ → Prop) :
    ReminderAccount → List ReminderStep → Prop
  | _, [] => True
  | a, s :: steps =>
    s.Documented times a ∧ s.Undisturbed codec settings times a ∧
      UndisturbedSteps codec settings times (a.step codec settings s) steps

end MeetilyLocal
