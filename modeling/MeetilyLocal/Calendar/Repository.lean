import MeetilyLocal.Database.Transcripts

/-!
# Calendar events

The tables of calendar events and the links of meetings to them, and the embedding of
`calendar/repository.rs` as far as a refresh and the links go. The events of a source are replaced
in one transaction: those stored are deleted and those of the feed are inserted, with an upsert on
source, UID and recurrence id.

The upsert would keep the id of an event that is still in the feed, but behind the deletion there is
none left to update: every event of the source has a new id, and the meetings hold the old one. So
links are kept only where there are none to keep (`linksKept_replaceEvents_iff`).

How dates and attendees are written is left open.
-/

namespace MeetilyLocal

/-- An attendee. -/
structure Attendee : Type where
  /-- name -/
  name : Option String
  /-- address -/
  email : Option String
  /-- role -/
  role : Option String
  /-- whether they take part -/
  status : Option String
  /-- they organize the event -/
  isOrganizer : Bool
  deriving DecidableEq

/-- An event as it is parsed. -/
structure ParsedEvent : Type where
  /-- `UID` -/
  icsUid : String
  /-- title -/
  summary : Option String
  /-- description -/
  description : Option String
  /-- location -/
  location : Option String
  /-- name of the organizer -/
  organizerName : Option String
  /-- address of the organizer -/
  organizerEmail : Option String
  /-- it takes whole days -/
  isAllDay : Bool
  /-- who attends -/
  attendees : List Attendee
  /-- its text -/
  rawIcs : String

/-- One materialised event ready for upsert. -/
structure OccurrenceForUpsert (DateTime : Type) : Type where
  /-- the event it is an occurrence of -/
  master : ParsedEvent
  /-- when it starts -/
  startAt : DateTime
  /-- when it ends -/
  endAt : DateTime
  /-- which occurrence it is -/
  recurrenceId : Option DateTime

/-- A row of `calendar_events`. -/
structure CalendarEventRow : Type where
  /-- primary key -/
  id : String
  /-- the source it comes from -/
  sourceId : String
  /-- `UID` -/
  icsUid : String
  /-- which occurrence it is -/
  recurrenceId : Option String
  /-- title -/
  summary : Option String
  /-- description -/
  description : Option String
  /-- location -/
  location : Option String
  /-- name of the organizer -/
  organizerName : Option String
  /-- address of the organizer -/
  organizerEmail : Option String
  /-- when it starts -/
  startAt : String
  /-- when it ends -/
  endAt : String
  /-- it takes whole days -/
  isAllDay : ℤ
  /-- who attends, JSON -/
  attendeesJson : String
  /-- its text -/
  rawIcs : Option String
  /-- when it was fetched -/
  fetchedAt : String
  deriving DecidableEq

/-- The columns of `meetings` that a link is in. -/
structure MeetingLink : Type where
  /-- the event the meeting is linked to -/
  calendarEventId : Option String
  /-- when the meeting was last changed -/
  updatedAt : String
  deriving DecidableEq

/-- The tables. -/
structure CalendarDatabase : Type where
  /-- the ids of the sources -/
  sources : List String
  /-- the `calendar_events` table -/
  events : List CalendarEventRow
  /-- the links, by meeting -/
  meetings : String → Option MeetingLink

/-- How values are written into columns. -/
structure CalendarFormats (DateTime : Type) : Type where
  /-- `to_rfc3339` -/
  toRfc3339 : DateTime → String
  /-- `serde_json::to_string` -/
  attendeesToString : List Attendee → Except String String

namespace CalendarRepository

variable {DateTime : Type} (formats : CalendarFormats DateTime)

/-- What the unique index on the events is about. -/
def eventKey (row : CalendarEventRow) : String × String × String :=
  (row.sourceId, row.icsUid, row.recurrenceId.getD "")

/-- `INSERT INTO calendar_events … ON CONFLICT(source_id, ics_uid, COALESCE(recurrence_id, '')) DO
UPDATE`: a row with that key keeps its id. -/
def upsertEvent (db : CalendarDatabase) (row : CalendarEventRow) :
    Except String CalendarDatabase :=
  if db.events.any (fun other => other.id == row.id) then
    .error "UNIQUE constraint failed: calendar_events.id"
  else if db.events.any (fun other => eventKey other == eventKey row) then
    .ok { db with
      events := db.events.map fun other =>
        if eventKey other == eventKey row then
          { row with
            id := other.id, sourceId := other.sourceId, icsUid := other.icsUid,
            recurrenceId := other.recurrenceId }
        else other }
  else if !db.sources.contains row.sourceId then .error "FOREIGN KEY constraint failed"
  else .ok { db with events := db.events ++ [row] }

/-- The row that is stored for an occurrence. -/
def occurrenceRow (sourceId id now : String) (occ : OccurrenceForUpsert DateTime) :
    CalendarEventRow where
  id := id
  sourceId := sourceId
  icsUid := occ.master.icsUid
  recurrenceId := occ.recurrenceId.map formats.toRfc3339
  summary := occ.master.summary
  description := occ.master.description
  location := occ.master.location
  organizerName := occ.master.organizerName
  organizerEmail := occ.master.organizerEmail
  startAt := formats.toRfc3339 occ.startAt
  endAt := formats.toRfc3339 occ.endAt
  isAllDay := if occ.master.isAllDay then 1 else 0
  attendeesJson :=
    match formats.attendeesToString occ.master.attendees with
    | .ok json => json
    | .error _ => "[]"
  rawIcs := some occ.master.rawIcs
  fetchedAt := now

/-- Upsert a row for each occurrence; the statements have the numbers from `k` on. -/
def upsertOccurrences (env : SqlEnv) (sourceId now : String) :
    ℕ → CalendarDatabase → List (OccurrenceForUpsert DateTime) → Except String CalendarDatabase
  | _, db, [] => .ok db
  | k, db, occ :: occurrences =>
    if env.ok k then
      match upsertEvent db (occurrenceRow formats sourceId (env.uuid k) now occ) with
      | .ok db => upsertOccurrences env sourceId now (k + 1) db occurrences
      | .error message => .error message
    else .error TranscriptsRepository.sqlError

/-- The statements of `replace_events`: the number of events that were inserted, and the tables. -/
def replaceStatements (env : SqlEnv) (db : CalendarDatabase) (sourceId : String)
    (occurrences : List (OccurrenceForUpsert DateTime)) : Except String (ℕ × CalendarDatabase) :=
  if env.ok 0 then
    let deleted := { db with events := db.events.filter fun row => row.sourceId != sourceId }
    match upsertOccurrences formats env sourceId (env.now 0) 1 deleted occurrences with
    | .ok db =>
      if env.ok (occurrences.length + 1) then .ok (occurrences.length, db)
      else .error TranscriptsRepository.sqlError
    | .error message => .error message
  else .error TranscriptsRepository.sqlError

/-- `replace_events`, a transaction: what it answers, and the tables behind it. -/
def replaceEvents (env : SqlEnv) (db : CalendarDatabase) (sourceId : String)
    (occurrences : List (OccurrenceForUpsert DateTime)) : Except String ℕ × CalendarDatabase :=
  match replaceStatements formats env db sourceId occurrences with
  | .ok (inserted, db) => (.ok inserted, db)
  | .error message => (.error message, db)

/-- `link_meeting` -/
def linkMeeting (env : SqlEnv) (db : CalendarDatabase) (meetingId : String)
    (eventId : Option String) : Except String Bool × CalendarDatabase :=
  if env.ok 0 then
    let linked := (db.meetings meetingId).map fun _ => ⟨eventId, env.now 0⟩
    (.ok linked.isSome, { db with meetings := Function.update db.meetings meetingId linked })
  else (.error TranscriptsRepository.sqlError, db)

/-- The row that `get_event_for_meeting` finds: the event whose id the meeting holds. -/
def getEventForMeeting (db : CalendarDatabase) (meetingId : String) : Option CalendarEventRow :=
  (db.meetings meetingId).bind fun link => link.calendarEventId.bind fun eventId =>
    db.events.find? fun row => row.id == eventId

/-! ## Links -/

/-- A row is that of an occurrence. -/
def IsRowOf (sourceId : String) (occ : OccurrenceForUpsert DateTime) (row : CalendarEventRow) :
    Prop :=
  row.sourceId = sourceId ∧ row.icsUid = occ.master.icsUid ∧
    row.recurrenceId = occ.recurrenceId.map formats.toRfc3339

/-- A refresh keeps the links: a meeting that is linked to an occurrence which is still in the feed
is linked to it afterwards, and a refresh that fails has changed nothing. -/
structure LinksKept (db : CalendarDatabase) (sourceId : String)
    (occurrences : List (OccurrenceForUpsert DateTime))
    (refreshed : Except String ℕ × CalendarDatabase) : Prop where
  /-- a refresh that succeeds keeps the links -/
  kept : ∀ inserted, refreshed.1 = .ok inserted → ∀ meetingId row, ∀ occ ∈ occurrences,
    getEventForMeeting db meetingId = some row → IsRowOf formats sourceId occ row →
      ∃ row', getEventForMeeting refreshed.2 meetingId = some row' ∧
        IsRowOf formats sourceId occ row'
  /-- one that fails changes nothing -/
  unchanged : ∀ message, refreshed.1 = .error message → refreshed.2 = db

variable {formats} {env : SqlEnv} {db db' : CalendarDatabase} {sourceId : String} {k : ℕ}
  {occurrences : List (OccurrenceForUpsert DateTime)}

/-! ### What a refresh stores -/

/-- The events of a source have ids that were made for them. -/
def HasNewIds (env : SqlEnv) (sourceId : String) (rows : List CalendarEventRow) (k : ℕ) : Prop :=
  ∀ row ∈ rows, row.sourceId = sourceId → ∃ j, 1 ≤ j ∧ j < k ∧ row.id = env.uuid j

/-- What an upsert leaves behind. -/
theorem of_upsertEvent {row : CalendarEventRow} (h : upsertEvent db row = .ok db') :
    db'.sources = db.sources ∧ db'.meetings = db.meetings ∧ ∀ stored ∈ db'.events,
      stored = row ∨ ∃ old ∈ db.events, stored.id = old.id ∧ stored.sourceId = old.sourceId := by
  rw [upsertEvent] at h
  split at h
  · cases h
  split at h
  · obtain rfl := Except.ok.inj h
    refine ⟨rfl, rfl, fun stored hstored => .inr ?_⟩
    obtain ⟨old, hold, rfl⟩ := List.mem_map.mp hstored
    refine ⟨old, hold, ?_⟩
    split <;> exact ⟨rfl, rfl⟩
  split at h
  · cases h
  · obtain rfl := Except.ok.inj h
    refine ⟨rfl, rfl, fun stored hstored => ?_⟩
    rcases List.mem_append.mp hstored with hold | hnew
    · exact .inr ⟨stored, hold, rfl, rfl⟩
    · exact .inl (List.mem_singleton.mp hnew)

/-- An upsert with an id that is not in use succeeds where the source is there. -/
theorem exists_upsertEvent {row : CalendarEventRow} (hid : ∀ old ∈ db.events, old.id ≠ row.id)
    (hsource : row.sourceId ∈ db.sources) : ∃ db', upsertEvent db row = .ok db' := by
  rw [upsertEvent, if_neg (by simpa using hid)]
  split
  · exact ⟨_, rfl⟩
  · rw [if_neg (by simpa using hsource)]
    exact ⟨_, rfl⟩

/-- An upsert gives the events of the source new ids, if they have had such before. -/
theorem HasNewIds.upsertEvent {now : String} {occ : OccurrenceForUpsert DateTime}
    (h : upsertEvent db (occurrenceRow formats sourceId (env.uuid k) now occ) = .ok db')
    (hids : HasNewIds env sourceId db.events k) (hk : 1 ≤ k) :
    HasNewIds env sourceId db'.events (k + 1) := by
  obtain ⟨-, -, hevents⟩ := of_upsertEvent h
  intro stored hstored hsource
  rcases hevents stored hstored with rfl | ⟨old, hold, hid, hsame⟩
  · exact ⟨k, hk, Nat.lt_succ_self k, rfl⟩
  · obtain ⟨j, hj, hlt, hold⟩ := hids old hold (hsame ▸ hsource)
    exact ⟨j, hj, hlt.trans (Nat.lt_succ_self k), hid.trans hold⟩

/-- After the upserts the events of the source have new ids, and the links are as before. -/
theorem of_upsertOccurrences {now : String}
    (h : upsertOccurrences formats env sourceId now k db occurrences = .ok db')
    (hids : HasNewIds env sourceId db.events k) (hk : 1 ≤ k) :
    db'.meetings = db.meetings ∧
      HasNewIds env sourceId db'.events (k + occurrences.length) := by
  induction occurrences generalizing k db with
  | nil =>
    obtain rfl := Except.ok.inj h
    exact ⟨rfl, hids⟩
  | cons occ occurrences ih =>
    rw [upsertOccurrences] at h
    split at h
    · split at h
      · next hupsert =>
        obtain ⟨hmeetings, hnew⟩ := ih h (hids.upsertEvent hupsert hk) (Nat.le_succ_of_le hk)
        obtain ⟨-, hsame, -⟩ := of_upsertEvent hupsert
        refine ⟨hmeetings.trans hsame, ?_⟩
        rwa [List.length_cons, Nat.add_comm occurrences.length, ← Nat.add_assoc]
      · cases h
    · cases h

/-- The ids that a refresh makes are not in use. -/
structure FreshIds (env : SqlEnv) (db : CalendarDatabase) (n : ℕ) : Prop where
  /-- no event has one -/
  unused : ∀ j, 1 ≤ j → j ≤ n → ∀ row ∈ db.events, row.id ≠ env.uuid j
  /-- they are distinct -/
  distinct : ∀ i, 1 ≤ i → i ≤ n → ∀ j, 1 ≤ j → j < i → env.uuid j ≠ env.uuid i

/-- After the deletion no event of the source is left. -/
theorem hasNewIds_deleted :
    HasNewIds env sourceId (db.events.filter fun row => row.sourceId != sourceId) 1 := by
  intro row hrow hsource
  have hne := (List.mem_filter.mp hrow).2
  simp [hsource] at hne

/-- Upserts with fresh ids succeed where the source is there and every statement is executed. -/
theorem exists_upsertOccurrences {now : String}
    (hok : ∀ j, k ≤ j → j < k + occurrences.length → env.ok j = true)
    (hused : ∀ j, k ≤ j → j < k + occurrences.length → ∀ row ∈ db.events, row.id ≠ env.uuid j)
    (hdistinct : ∀ i, k ≤ i → i < k + occurrences.length → ∀ j, k ≤ j → j < i →
      env.uuid j ≠ env.uuid i)
    (hsource : sourceId ∈ db.sources) :
    ∃ db', upsertOccurrences formats env sourceId now k db occurrences = .ok db' := by
  induction occurrences generalizing k db with
  | nil => exact ⟨db, rfl⟩
  | cons occ occurrences ih =>
    have hlt : k < k + (occ :: occurrences).length :=
      Nat.lt_add_of_pos_right (Nat.succ_pos _)
    have hlength : k + 1 + occurrences.length = k + (occ :: occurrences).length := by
      rw [List.length_cons, Nat.add_assoc, Nat.add_comm 1]
    have hid : ∀ row ∈ db.events,
        row.id ≠ (occurrenceRow formats sourceId (env.uuid k) now occ).id := hused k le_rfl hlt
    obtain ⟨db₁, hupsert⟩ := exists_upsertEvent hid hsource
    obtain ⟨hsources, -, hevents⟩ := of_upsertEvent hupsert
    rw [upsertOccurrences, if_pos (hok k le_rfl hlt), hupsert]
    refine ih (fun j hj hlt' => hok j (Nat.le_of_succ_le hj) (hlength ▸ hlt')) ?_
      (fun i hi hlt' j hj => hdistinct i (Nat.le_of_succ_le hi) (hlength ▸ hlt') j
        (Nat.le_of_succ_le hj)) (hsources ▸ hsource)
    intro j hj hlt' row hrow
    rcases hevents row hrow with rfl | ⟨old, hold, hid, -⟩
    · exact hdistinct j (Nat.le_of_succ_le hj) (hlength ▸ hlt') k le_rfl hj
    · exact hid ▸ hused j (Nat.le_of_succ_le hj) (hlength ▸ hlt') old hold

/-- A refresh in which every statement is executed succeeds. -/
theorem exists_replaceStatements (hok : ∀ j ≤ occurrences.length + 1, env.ok j = true)
    (hfresh : FreshIds env db occurrences.length) (hsource : sourceId ∈ db.sources) :
    ∃ inserted db', replaceStatements formats env db sourceId occurrences = .ok (inserted, db') := by
  obtain ⟨db', hupserts⟩ : ∃ db', upsertOccurrences formats env sourceId (env.now 0) 1
      { db with events := db.events.filter fun row => row.sourceId != sourceId } occurrences =
        .ok db' :=
    exists_upsertOccurrences (fun j _ hlt => hok j (by omega))
      (fun j hj hlt row hrow => hfresh.unused j hj (by omega) row (List.mem_filter.mp hrow).1)
      (fun i hi hlt j hj hlt' => hfresh.distinct i hi (by omega) j hj hlt') hsource
  refine ⟨occurrences.length, db', ?_⟩
  rw [replaceStatements, if_pos (hok 0 (Nat.zero_le _))]
  simp only [hupserts]
  exact if_pos (hok _ le_rfl)

/-- What a refresh that succeeds leaves: the links as they were, and events with new ids. -/
theorem of_replaceStatements {inserted : ℕ}
    (h : replaceStatements formats env db sourceId occurrences = .ok (inserted, db')) :
    db'.meetings = db.meetings ∧ HasNewIds env sourceId db'.events (1 + occurrences.length) := by
  rw [replaceStatements] at h
  split at h
  · simp only at h
    split at h
    · next hupserts =>
      split at h
      · obtain ⟨-, rfl⟩ := Prod.mk.inj (Except.ok.inj h)
        have hafter := of_upsertOccurrences hupserts hasNewIds_deleted le_rfl
        exact hafter
      · cases h
    · cases h
  · cases h

/-- The first upsert of a source whose events were deleted needs the source. -/
theorem mem_sources_of_upsertEvent {row : CalendarEventRow} (h : upsertEvent db row = .ok db')
    (hdeleted : ∀ old ∈ db.events, old.sourceId ≠ row.sourceId) : row.sourceId ∈ db.sources := by
  rw [upsertEvent] at h
  split at h
  · cases h
  split at h
  · next hconflict =>
    obtain ⟨old, hold, hkey⟩ := List.any_eq_true.mp hconflict
    exact absurd (congrArg Prod.fst (eq_of_beq hkey)) (hdeleted old hold)
  split at h
  · cases h
  · next hsource => simpa using hsource

/-- Upserts that succeed were all executed. -/
theorem ok_of_upsertOccurrences {now : String}
    (h : upsertOccurrences formats env sourceId now k db occurrences = .ok db') :
    ∀ j, k ≤ j → j < k + occurrences.length → env.ok j = true := by
  induction occurrences generalizing k db with
  | nil => exact fun j hj hlt => absurd hlt (Nat.not_lt.mpr hj)
  | cons occ occurrences ih =>
    rw [upsertOccurrences] at h
    split at h
    · next hok =>
      split at h
      · intro j hj hlt
        rcases Nat.eq_or_lt_of_le hj with rfl | hj
        · exact hok
        · exact ih h j hj (by rw [List.length_cons] at hlt; omega)
      · cases h
    · cases h

/-- What a refresh that succeeds has needed. -/
theorem needed_of_replaceStatements {inserted : ℕ}
    (h : replaceStatements formats env db sourceId occurrences = .ok (inserted, db')) :
    (∀ j ≤ occurrences.length + 1, env.ok j = true) ∧
      ∀ occ ∈ occurrences, sourceId ∈ db.sources := by
  rw [replaceStatements] at h
  split at h
  · next hbegin =>
    simp only at h
    split at h
    · next hupserts =>
      split at h
      · next hcommit =>
        refine ⟨fun j hj => ?_, fun occ hocc => ?_⟩
        · rcases Nat.eq_or_lt_of_le hj with rfl | hlt
          · exact hcommit
          rcases Nat.eq_zero_or_pos j with rfl | hpos
          · exact hbegin
          · exact ok_of_upsertOccurrences hupserts j hpos (by omega)
        · obtain ⟨first, rest, rfl⟩ := List.exists_cons_of_ne_nil (List.ne_nil_of_mem hocc)
          rw [upsertOccurrences] at hupserts
          split at hupserts
          · split at hupserts
            · next hfirst =>
              refine mem_sources_of_upsertEvent hfirst fun old hold => ?_
              have hne : old.sourceId ≠ sourceId := by
                simpa using (List.mem_filter.mp hold).2
              exact hne
            · cases hupserts
          · cases hupserts
      · cases h
    · cases h
  · cases h

/-! ### What links survive -/

/-- The event of a meeting is one that is stored, and the meeting holds its id. -/
theorem of_getEventForMeeting {meetingId : String} {row : CalendarEventRow}
    (h : getEventForMeeting db meetingId = some row) :
    row ∈ db.events ∧ ∃ link, db.meetings meetingId = some link ∧
      link.calendarEventId = some row.id := by
  obtain ⟨link, hlink, h⟩ := Option.bind_eq_some_iff.mp h
  obtain ⟨eventId, hevent, h⟩ := Option.bind_eq_some_iff.mp h
  have hid : row.id = eventId := by simpa using List.find?_some h
  exact ⟨List.mem_of_find?_eq_some h, link, hlink, hid ▸ hevent⟩

/-- A meeting that was linked to a stored event finds it. -/
theorem getEventForMeeting_linkMeeting {meetingId : String} {row : CalendarEventRow}
    (hok : env.ok 0 = true) (hmeeting : (db.meetings meetingId).isSome)
    (hrow : db.events.find? (fun other => other.id == row.id) = some row) :
    getEventForMeeting (linkMeeting env db meetingId (some row.id)).2 meetingId = some row := by
  obtain ⟨link, hlink⟩ := Option.isSome_iff_exists.mp hmeeting
  simp [getEventForMeeting, linkMeeting, hok, hlink, hrow]

/-- A meeting is linked to an occurrence of the feed. -/
def LinkedInFeed (formats : CalendarFormats DateTime) (db : CalendarDatabase) (sourceId : String)
    (occurrences : List (OccurrenceForUpsert DateTime)) : Prop :=
  ∃ meetingId row, getEventForMeeting db meetingId = some row ∧
    ∃ occ ∈ occurrences, IsRowOf formats sourceId occ row

/-- No link to an event of the source survives a refresh that succeeds. -/
theorem getEventForMeeting_replaced {inserted : ℕ} {meetingId : String}
    {row row' : CalendarEventRow}
    (h : replaceStatements formats env db sourceId occurrences = .ok (inserted, db'))
    (hfresh : FreshIds env db occurrences.length)
    (hlinked : getEventForMeeting db meetingId = some row)
    (hafter : getEventForMeeting db' meetingId = some row') : row'.sourceId ≠ sourceId := by
  intro hsource
  obtain ⟨hmeetings, hnew⟩ := of_replaceStatements h
  obtain ⟨hstored, link, hlink, hid⟩ := of_getEventForMeeting hlinked
  obtain ⟨hstored', link', hlink', hid'⟩ := of_getEventForMeeting hafter
  rw [hmeetings, hlink] at hlink'
  obtain rfl := Option.some.inj hlink'
  obtain ⟨j, hj, hlt, hfreshId⟩ := hnew row' hstored' hsource
  refine hfresh.unused j hj (by omega) row hstored ?_
  rw [← hfreshId]
  exact Option.some.inj (hid.symm.trans hid')

/-- **The links of a refresh.** Whatever is stored, and whatever the feed contains: a refresh keeps
the links exactly if one of its statements fails, or the source is not there, or no meeting is
linked to an occurrence that is in the feed. -/
theorem linksKept_replaceEvents_iff (hfresh : FreshIds env db occurrences.length) :
    LinksKept formats db sourceId occurrences
        (replaceEvents formats env db sourceId occurrences) ↔
      (∃ j ≤ occurrences.length + 1, env.ok j = false) ∨ sourceId ∉ db.sources ∨
        ¬LinkedInFeed formats db sourceId occurrences := by
  constructor
  · intro hkept
    by_contra hcondition
    simp only [not_or, not_not, not_exists, not_and, Bool.not_eq_false] at hcondition
    obtain ⟨hok, hsource, meetingId, row, hlinked, occ, hocc, hrow⟩ := hcondition
    obtain ⟨inserted, db', hreplaced⟩ : ∃ inserted db',
        replaceStatements formats env db sourceId occurrences = .ok (inserted, db') :=
      exists_replaceStatements hok hfresh hsource
    have hrefreshed : replaceEvents formats env db sourceId occurrences = (.ok inserted, db') := by
      rw [replaceEvents, hreplaced]
    rw [hrefreshed] at hkept
    obtain ⟨row', hafter, hrow'⟩ := hkept.kept inserted rfl meetingId row occ hocc hlinked hrow
    exact getEventForMeeting_replaced hreplaced hfresh hlinked hafter hrow'.1
  · intro hcondition
    refine ⟨?_, ?_⟩
    · intro inserted hinserted meetingId row occ hocc hlinked hrow
      rcases hreplaced : replaceStatements formats env db sourceId occurrences with
        message | ⟨n, db'⟩
      · rw [replaceEvents, hreplaced] at hinserted
        cases hinserted
      · obtain ⟨hok, hsource⟩ := needed_of_replaceStatements hreplaced
        rcases hcondition with ⟨j, hj, hfails⟩ | hmissing | hnone
        · rw [hok j hj] at hfails
          cases hfails
        · exact absurd (hsource occ hocc) hmissing
        · exact absurd ⟨meetingId, row, hlinked, occ, hocc, hrow⟩ hnone
    · intro message hfailed
      rcases hreplaced : replaceStatements formats env db sourceId occurrences with
        message | ⟨n, db'⟩
      · rw [replaceEvents, hreplaced]
      · rw [replaceEvents, hreplaced] at hfailed
        cases hfailed

/-! ### A meeting whose event is fetched again -/

/-- Dates that are written already. -/
def writtenDates : CalendarFormats String := ⟨id, fun _ => .ok "[]"⟩

/-- A weekly meeting. -/
def weekly : ParsedEvent :=
  ⟨"weekly@example", some "Weekly", none, none, none, none, false, [], "BEGIN:VEVENT"⟩

/-- An occurrence of it. -/
def occurrenceOn (day : String) : OccurrenceForUpsert String := ⟨weekly, day, day, some day⟩

/-- Everything is executed. -/
def calmRefresh : SqlEnv :=
  ⟨fun _ => true, fun _ => "2026-05-06T12:00:00+00:00", fun k => "id" ++ toString k⟩

/-- One occurrence is stored, and a meeting is linked to it. -/
def oneLink : CalendarDatabase where
  sources := ["work"]
  events := [occurrenceRow writtenDates "work" "event" "2026-05-05T12:00:00+00:00"
    (occurrenceOn "2026-05-05T10:00:00+00:00")]
  meetings := fun meetingId =>
    if meetingId = "meeting-1" then some ⟨some "event", "2026-05-05T11:00:00+00:00"⟩ else none

/-- The ids of a refresh are fresh. -/
theorem freshIds_oneLink : FreshIds calmRefresh oneLink 1 where
  unused := by
    intro j hj hle row hrow
    obtain rfl : j = 1 := by omega
    obtain rfl := List.mem_singleton.mp hrow
    decide
  distinct := by
    intro i hi hle j hj hlt
    omega

/-- The feed has gone on to the next week. -/
theorem linksKept_nextWeek : LinksKept writtenDates oneLink "work"
    [occurrenceOn "2026-05-12T10:00:00+00:00"]
    (replaceEvents writtenDates calmRefresh oneLink "work"
      [occurrenceOn "2026-05-12T10:00:00+00:00"]) := by
  refine (linksKept_replaceEvents_iff freshIds_oneLink).mpr (.inr (.inr ?_))
  rintro ⟨meetingId, row, hlinked, occ, hocc, -, -, hrecurrence⟩
  obtain rfl := List.mem_singleton.mp (of_getEventForMeeting hlinked).1
  obtain rfl := List.mem_singleton.mp hocc
  revert hrecurrence
  decide

/-- The link is lost when the same occurrence is fetched again. -/
theorem not_linksKept_sameWeek : ¬LinksKept writtenDates oneLink "work"
    [occurrenceOn "2026-05-05T10:00:00+00:00"]
    (replaceEvents writtenDates calmRefresh oneLink "work"
      [occurrenceOn "2026-05-05T10:00:00+00:00"]) := by
  intro h
  obtain ⟨row, hrow, -⟩ := h.kept 1 rfl "meeting-1" _ _ (List.mem_singleton_self _) rfl
    ⟨rfl, rfl, rfl⟩
  have hdangling : getEventForMeeting (replaceEvents writtenDates calmRefresh oneLink "work"
      [occurrenceOn "2026-05-05T10:00:00+00:00"]).2 "meeting-1" = none := by
    decide +kernel
  rw [hdangling] at hrow
  cases hrow

end CalendarRepository

end MeetilyLocal
