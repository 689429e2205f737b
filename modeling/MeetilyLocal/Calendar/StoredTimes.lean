import MeetilyLocal.Calendar.Reminders
import MeetilyLocal.Library.CivilDate
import MeetilyLocal.Library.FixedWidth

/-!
# Times of events as texts

The columns of `calendar_events` hold times as `to_rfc3339` writes them, and the queries of
`calendar/repository.rs` compare these texts. For times of the years 0 to 9999 that is the order of
the times (`rfc3339_lt_iff`): the numbers have a fixed width, the fraction of a second has as many
groups of digits as it needs, and the sign of the zone that comes behind is smaller than a digit and a
point.

So `list_events_in_range` and `find_event_for_now` find the events that they should
(`exact_refreshAll`). Leap seconds are included, as `chrono` has them.
-/

namespace MeetilyLocal

open CalendarRepository Decimal FixedWidth

/-! ## Times -/

/-- `DateTime<Utc>`, as `chrono` has it. -/
structure UtcDateTime : Type where
  date : CivilDate
  /-- seconds since midnight -/
  secs : ℕ
  /-- nanoseconds since the second, of which a leap second is a part -/
  frac : ℕ
  secs_lt : secs < 86400
  frac_lt : frac < 2000000000
  leap : 1000000000 ≤ frac → secs % 60 = 59
  deriving DecidableEq

namespace UtcDateTime

variable {t u : UtcDateTime}

/-- `timestamp`: seconds since 1970 -/
def timestamp (t : UtcDateTime) : ℤ := (t.date.dayNumber - 719163) * 86400 + t.secs

/-- When it is: seconds, and then nanoseconds. -/
def moment (t : UtcDateTime) : ℤ ×ₗ ℕ := toLex (t.timestamp, t.frac)

/-- It is in one of the years that have four digits. -/
def InYears (t : UtcDateTime) : Prop := 0 ≤ t.date.year ∧ t.date.year ≤ 9999

instance : DecidablePred InYears := fun _ => inferInstanceAs (Decidable (_ ∧ _))

/-- A year: another one than of four digits has a sign. -/
def yearText (y : ℤ) : List Char :=
  if 0 ≤ y ∧ y ≤ 9999 then padded 4 y.toNat else (if y < 0 then '-' else '+') :: padded 4 y.natAbs

/-- The nanoseconds of a second, with no more groups of three digits than they need
(`SecondsFormat::AutoSi`). -/
def fraction (nano : ℕ) : List Char :=
  if nano = 0 then []
  else if nano % 1000000 = 0 then '.' :: padded 3 (nano / 1000000)
  else if nano % 1000 = 0 then '.' :: padded 6 (nano / 1000)
  else '.' :: padded 9 nano

/-- The zone, `+00:00`. -/
def zone : List Char := "+00:00".toList

/-- The numbers behind the year, and what is in front of each. -/
def layout : List (List Char × ℕ) := [(['-'], 2), (['-'], 2), (['T'], 2), ([':'], 2), ([':'], 2)]

/-- Their values; a leap second is the second 60. -/
def fields (t : UtcDateTime) : List ℕ :=
  [t.date.month, t.date.day, t.secs / 3600, t.secs / 60 % 60, t.secs % 60 + t.frac / 1000000000]

/-- `to_rfc3339` -/
def rfc3339 (t : UtcDateTime) : String :=
  String.ofList (yearText t.date.year ++
    render layout t.fields (fraction (t.frac % 1000000000) ++ zone))

/-! ## Their order -/

theorem fraction_append_zone {nano : ℕ} (h : nano < 1000000000) :
    fraction nano ++ zone = if nano = 0 then zone
      else '.' :: groups zone [nano / 1000000, nano / 1000 % 1000, nano % 1000] := by
  have hsix : padded 6 (nano / 1000) = padded 3 (nano / 1000000) ++ padded 3 (nano / 1000 % 1000) := by
    rw [padded_add (w := 3) (v := 3) (by decide) (by decide), Nat.div_div_eq_div_mul]
    rfl
  have hnine : padded 9 nano = padded 6 (nano / 1000) ++ padded 3 (nano % 1000) :=
    padded_add (w := 6) (v := 3) (by decide) (by decide) nano
  rw [fraction]
  by_cases hzero : nano = 0
  · simp [hzero]
  have hgroups : ∀ g gs, ¬(∀ k ∈ g :: gs, k = 0) → groups zone (g :: gs) = padded 3 g ++ groups zone gs :=
    fun g gs hne => by rw [groups, if_neg hne]
  rw [if_neg hzero, if_neg hzero, hgroups _ _ (by simp; omega)]
  by_cases hmillis : nano % 1000000 = 0
  · have hrest : ∀ k ∈ [nano / 1000 % 1000, nano % 1000], k = 0 := by
      simp
      omega
    rw [if_pos hmillis, groups, if_pos hrest, List.cons_append]
  rw [if_neg hmillis, hgroups _ _ (by simp; omega)]
  by_cases hmicros : nano % 1000 = 0
  · rw [if_pos hmicros, groups, if_pos (by simpa using hmicros), hsix, List.cons_append,
      List.append_assoc]
  · rw [if_neg hmicros, hgroups _ _ (by simpa using hmicros), groups, hnine, hsix, List.cons_append,
      List.append_assoc, List.append_assoc]

theorem zone_append_lt {m n : ℕ} (hn : n < 1000000000) (h : m < n) :
    fraction m ++ zone < fraction n ++ zone := by
  rw [fraction_append_zone (h.trans hn), fraction_append_zone hn, if_neg (by omega : n ≠ 0)]
  split
  · exact List.cons_lt_cons_iff.mpr (.inl (by decide))
  · rw [List.cons_lt_cons_iff]
    refine .inr ⟨rfl, groups_lt_groups (by decide) rfl ?_ ?_ ?_⟩
    · simp
      omega
    · simp
      omega
    · simp only [List.cons_lt_cons_iff]
      omega

theorem zone_append_lt_iff {m n : ℕ} (hm : m < 1000000000) (hn : n < 1000000000) :
    fraction m ++ zone < fraction n ++ zone ↔ m < n := by
  refine ⟨?_, zone_append_lt hn⟩
  intro h
  rcases lt_trichotomy m n with hlt | rfl | hlt
  · exact hlt
  · exact absurd h (lt_irrefl _)
  · exact absurd h (lt_asymm (zone_append_lt hm hlt))

theorem fits_fields (t : UtcDateTime) : FixedWidth.Fits layout t.fields := by
  have hmonth := t.date.month_mem.2
  have hday : t.date.day ≤ 31 := t.date.day_mem.2.trans (daysInMonth_le _ _)
  have hsecs := t.secs_lt
  have hfrac := t.frac_lt
  have hleap := t.leap
  simp only [FixedWidth.Fits, layout, fields, List.forall₂_cons, List.forall₂_nil_left_iff]
  norm_num
  omega

/-- A time of a year with four digits. -/
theorem rfc3339_eq (h : t.InYears) : rfc3339 t = String.ofList
    (render (([], 4) :: layout) (t.date.year.toNat :: t.fields)
      (fraction (t.frac % 1000000000) ++ zone)) := by
  have hyear : 0 ≤ t.date.year ∧ t.date.year ≤ 9999 := h
  rw [rfc3339, yearText, if_pos hyear, render, List.nil_append]

theorem moment_lt_iff : t.moment < u.moment ↔ t.date.fields < u.date.fields ∨
    t.date = u.date ∧ (t.secs < u.secs ∨ t.secs = u.secs ∧ t.frac < u.frac) := by
  have hdays := CivilDate.dayNumber_lt_iff (a := t.date) (b := u.date)
  have hdate : t.date.dayNumber = u.date.dayNumber ↔ t.date = u.date :=
    CivilDate.dayNumber_injective.eq_iff
  rw [moment, moment, Prod.Lex.toLex_lt_toLex, ← hdays, ← hdate, timestamp, timestamp]
  have ht := t.secs_lt
  have hu := u.secs_lt
  omega

/-- The time of day by its hour, minute, second and nanosecond. -/
theorem clock_lt_iff :
    (t.secs / 3600 < u.secs / 3600 ∨ t.secs / 3600 = u.secs / 3600 ∧
      (t.secs / 60 % 60 < u.secs / 60 % 60 ∨ t.secs / 60 % 60 = u.secs / 60 % 60 ∧
        (t.secs % 60 + t.frac / 1000000000 < u.secs % 60 + u.frac / 1000000000 ∨
          t.secs % 60 + t.frac / 1000000000 = u.secs % 60 + u.frac / 1000000000 ∧
            t.frac % 1000000000 < u.frac % 1000000000))) ↔
      t.secs < u.secs ∨ t.secs = u.secs ∧ t.frac < u.frac := by
  have hleap := t.leap
  have hleap' := u.leap
  have hfrac := t.frac_lt
  have hfrac' := u.frac_lt
  omega

/-- **Times** of the years 0 to 9999 are written as texts that compare as they do. -/
theorem rfc3339_lt_iff (ht : t.InYears) (hu : u.InYears) :
    rfc3339 t < rfc3339 u ↔ t.moment < u.moment := by
  have hyear : ∀ v : UtcDateTime, v.InYears →
      FixedWidth.Fits (([], 4) :: layout) (v.date.year.toNat :: v.fields) := by
    intro v hv
    have hlt : v.date.year.toNat < 10 ^ 4 := by
      have := hv.2
      omega
    exact .cons ⟨by decide, hlt⟩ (fits_fields v)
  rw [rfc3339_eq ht, rfc3339_eq hu, String.lt_iff_toList_lt, String.toList_ofList,
    String.toList_ofList, render_lt_iff (hyear t ht) (hyear u hu),
    zone_append_lt_iff (Nat.mod_lt _ (by decide)) (Nat.mod_lt _ (by decide)), moment_lt_iff]
  have hdate : t.date = u.date ↔ t.date.year = u.date.year ∧ t.date.month = u.date.month ∧
      t.date.day = u.date.day := by
    rw [← CivilDate.fields_injective.eq_iff]
    simp [CivilDate.fields]
  rw [hdate]
  simp only [CivilDate.fields, Prod.Lex.toLex_lt_toLex, fields, List.cons_lt_cons_iff,
    List.cons_eq_cons, and_true, lt_irrefl, and_false, or_false]
  have hyears : t.date.year.toNat < u.date.year.toNat ↔ t.date.year < u.date.year := by
    have := ht.1
    have := hu.1
    omega
  have hsame : t.date.year.toNat = u.date.year.toNat ↔ t.date.year = u.date.year := by
    have := ht.1
    have := hu.1
    omega
  rw [hyears, hsame, ← clock_lt_iff]
  simp only [and_or_left, or_assoc, and_assoc]

end UtcDateTime

/-! ## Queries -/

/-- How the columns of events are written and read, and how times are moved. -/
structure DateTimeCodec (DateTime : Type) : Type extends CalendarFormats DateTime where
  /-- `DateTime::parse_from_rfc3339`, in UTC -/
  parseFromRfc3339 : String → Option DateTime
  /-- `serde_json::from_str` -/
  attendeesFromStr : String → Option (List Attendee)
  /-- so many minutes later -/
  plusMinutes : DateTime → ℤ → DateTime

/-- An event as it is read, with its times. -/
structure TimedEvent (DateTime : Type) : Type where
  /-- the row it is read from -/
  row : CalendarEventRow
  /-- when it starts -/
  startAt : DateTime
  /-- when it ends -/
  endAt : DateTime
  /-- who attends -/
  attendees : List Attendee

namespace StoredTimes

section Queries

variable {DateTime : Type} (codec : DateTimeCodec DateTime)

/-- `CalendarEvent::try_from` -/
def tryFrom (row : CalendarEventRow) : Option (TimedEvent DateTime) := do
  let startAt ← codec.parseFromRfc3339 row.startAt
  let endAt ← codec.parseFromRfc3339 row.endAt
  let attendees ← codec.attendeesFromStr row.attendeesJson
  return ⟨row, startAt, endAt, attendees⟩

/-- `WHERE start_at < ? AND end_at > ?`, on the columns as texts -/
def inRange (since til : DateTime) (row : CalendarEventRow) : Bool :=
  row.startAt < codec.toRfc3339 til && codec.toRfc3339 since < row.endAt

/-- `list_events_in_range`: rows that cannot be read are dropped. -/
def listEventsInRange (ok : Bool) (order : Arrangement CalendarEventRow) (db : CalendarDatabase)
    (since til : DateTime) : Except String (List (TimedEvent DateTime)) :=
  if ok then
    .ok ((orderBy (·.startAt) order (db.events.filter (inRange codec since til))).filterMap
      (tryFrom codec))
  else .error TranscriptsRepository.sqlError

/-- `WHERE is_all_day = 0 AND start_at <= ? AND end_at >= ?` -/
def around (since til : DateTime) (row : CalendarEventRow) : Bool :=
  row.isAllDay = 0 && row.startAt ≤ codec.toRfc3339 til && codec.toRfc3339 since ≤ row.endAt

/-- `find_event_for_now`: `ORDER BY start_at DESC LIMIT 1`, from 15 minutes ago to in 5 minutes. -/
def findEventForNow (ok : Bool) (order : Arrangement CalendarEventRow) (db : CalendarDatabase)
    (now : DateTime) : Except String (Option (TimedEvent DateTime)) :=
  let since := codec.plusMinutes now (-15)
  let til := codec.plusMinutes now 5
  if ok then
    .ok ((orderBy (fun row => OrderDual.toDual row.startAt) order
      (db.events.filter (around codec since til))).head?.bind (tryFrom codec))
  else .error TranscriptsRepository.sqlError

end Queries

/-- An event whose times are nanoseconds, as the reminders have it. -/
def toCalendarEvent (e : TimedEvent ℤ) : CalendarEvent where
  id := e.row.id
  sourceId := e.row.sourceId
  icsUid := e.row.icsUid
  recurrenceId := e.row.recurrenceId
  summary := e.row.summary
  description := e.row.description
  location := e.row.location
  organizerName := e.row.organizerName
  organizerEmail := e.row.organizerEmail
  startAt := e.startAt
  endAt := e.endAt
  isAllDay := e.row.isAllDay != 0
  attendees := e.attendees

/-- The query of the reminders is this one. -/
theorem listEventsInRange_nanoseconds (codec : CalendarCodec) (plusMinutes : ℤ → ℤ → ℤ) (ok : Bool)
    (order : Arrangement CalendarEventRow) (db : CalendarDatabase) (since til : ℤ) :
    CalendarRepository.listEventsInRange codec ok order db since til =
      (listEventsInRange
          ⟨codec.toCalendarFormats, codec.parseFromRfc3339, codec.attendeesFromStr, plusMinutes⟩ ok
          order db since til).map (List.map toCalendarEvent) := by
  have htry : CalendarRepository.tryFrom codec = fun row =>
      (tryFrom ⟨codec.toCalendarFormats, codec.parseFromRfc3339, codec.attendeesFromStr, plusMinutes⟩
        row).map toCalendarEvent := by
    funext row
    simp only [CalendarRepository.tryFrom, tryFrom]
    cases codec.parseFromRfc3339 row.startAt <;> cases codec.parseFromRfc3339 row.endAt <;>
      cases codec.attendeesFromStr row.attendeesJson <;> rfl
  rw [CalendarRepository.listEventsInRange, listEventsInRange]
  split
  · rw [Except.map, List.map_filterMap, htry]
    rfl
  · rfl

/-! ## What is stored -/

section Stored

variable {codec : DateTimeCodec UtcDateTime} {env : SqlEnv} {db db' : CalendarDatabase}
  {sourceId now : String} {k : ℕ} {row : CalendarEventRow}
  {occ : OccurrenceForUpsert UtcDateTime} {occurrences all : List (OccurrenceForUpsert UtcDateTime)}

/-- A row has the columns of an occurrence that the queries read. -/
structure Holds (codec : DateTimeCodec UtcDateTime) (occ : OccurrenceForUpsert UtcDateTime)
    (row : CalendarEventRow) : Prop where
  startAt : row.startAt = codec.toRfc3339 occ.startAt
  endAt : row.endAt = codec.toRfc3339 occ.endAt
  isAllDay : row.isAllDay = if occ.master.isAllDay then 1 else 0
  attendees : codec.attendeesToString occ.master.attendees = .ok row.attendeesJson ∨
    row.attendeesJson = "[]"

/-- Each row has those of some occurrence. -/
def AllHold (codec : DateTimeCodec UtcDateTime) (all : List (OccurrenceForUpsert UtcDateTime))
    (db : CalendarDatabase) : Prop :=
  ∀ row ∈ db.events, ∃ occ ∈ all, Holds codec occ row

theorem holds_occurrenceRow (sourceId id now : String) (occ : OccurrenceForUpsert UtcDateTime) :
    Holds codec occ (occurrenceRow codec.toCalendarFormats sourceId id now occ) := by
  refine ⟨rfl, rfl, rfl, ?_⟩
  rw [occurrenceRow]
  cases codec.attendeesToString occ.master.attendees with
  | ok json => exact .inl rfl
  | error message => exact .inr rfl

/-- An upsert puts the columns of its row in the place of others. -/
theorem AllHold.upsertEvent (h : AllHold codec all db) (hocc : occ ∈ all) (hrow : Holds codec occ row)
    (hupsert : upsertEvent db row = .ok db') : AllHold codec all db' := by
  rw [CalendarRepository.upsertEvent] at hupsert
  split_ifs at hupsert with hid hkey hsource <;> obtain rfl := Except.ok.inj hupsert
  · intro stored hstored
    obtain ⟨old, hold, rfl⟩ := List.mem_map.mp hstored
    split
    · exact ⟨occ, hocc, hrow.startAt, hrow.endAt, hrow.isAllDay, hrow.attendees⟩
    · exact h old hold
  · intro stored hstored
    rcases List.mem_append.mp hstored with hold | hnew
    · exact h stored hold
    · exact ⟨occ, hocc, List.mem_singleton.mp hnew ▸ hrow⟩

theorem AllHold.upsertOccurrences (h : AllHold codec all db) (hsub : ∀ occ ∈ occurrences, occ ∈ all)
    (hupsert : upsertOccurrences codec.toCalendarFormats env sourceId now k db occurrences = .ok db') :
    AllHold codec all db' := by
  induction occurrences generalizing k db with
  | nil => exact Except.ok.inj hupsert ▸ h
  | cons occ occurrences ih =>
    rw [CalendarRepository.upsertOccurrences] at hupsert
    split at hupsert
    · split at hupsert
      next hone =>
        have hfirst := h.upsertEvent (hsub occ List.mem_cons_self) (holds_occurrenceRow _ _ _ _) hone
        exact ih hfirst (fun occ hocc => hsub occ (List.mem_cons_of_mem _ hocc)) hupsert
      next => cases hupsert
    · cases hupsert

/-- A refresh stores the columns of its occurrences, and deletes or leaves those of others. -/
theorem AllHold.replaceEvents (h : AllHold codec all db) (hsub : ∀ occ ∈ occurrences, occ ∈ all) :
    AllHold codec all (replaceEvents codec.toCalendarFormats env db sourceId occurrences).2 := by
  rw [CalendarRepository.replaceEvents]
  split
  next inserted db' hstatements =>
    rw [replaceStatements] at hstatements
    split at hstatements
    · simp only at hstatements
      split at hstatements
      next hupserts =>
        split at hstatements
        · obtain ⟨-, rfl⟩ := Prod.mk.inj (Except.ok.inj hstatements)
          have hdeleted : AllHold codec all
              { db with events := db.events.filter fun row => row.sourceId != sourceId } :=
            fun row hrow => h row (List.mem_filter.mp hrow).1
          exact hdeleted.upsertOccurrences hsub hupserts
        · cases hstatements
      next => cases hstatements
    · cases hstatements
  next => exact h

end Stored

/-! ## What is found -/

/-- A refresh of a source. -/
structure Refresh : Type where
  env : SqlEnv
  sourceId : String
  occurrences : List (OccurrenceForUpsert UtcDateTime)

/-- The tables after some refreshes. -/
def refreshAll (codec : DateTimeCodec UtcDateTime) (db : CalendarDatabase)
    (refreshes : List Refresh) : CalendarDatabase :=
  refreshes.foldl (fun db r =>
    (replaceEvents codec.toCalendarFormats r.env db r.sourceId r.occurrences).2) db

/-- The times of an occurrence have years with four digits, and its row can be read back. -/
structure Readable (codec : DateTimeCodec UtcDateTime) (occ : OccurrenceForUpsert UtcDateTime) :
    Prop where
  start_inYears : occ.startAt.InYears
  end_inYears : occ.endAt.InYears
  startAt : codec.parseFromRfc3339 (codec.toRfc3339 occ.startAt) = some occ.startAt
  endAt : codec.parseFromRfc3339 (codec.toRfc3339 occ.endAt) = some occ.endAt
  attendees : ∀ json, codec.attendeesToString occ.master.attendees = .ok json ∨ json = "[]" →
    (codec.attendeesFromStr json).isSome = true

/-- An event overlaps a range. -/
def Overlaps (since til : UtcDateTime) (e : TimedEvent UtcDateTime) : Prop :=
  e.startAt.moment < til.moment ∧ since.moment < e.endAt.moment

/-- An event with a time contains some moment of a window. -/
def IsAround (since til : UtcDateTime) (e : TimedEvent UtcDateTime) : Prop :=
  e.row.isAllDay = 0 ∧ e.startAt.moment ≤ til.moment ∧ since.moment ≤ e.endAt.moment

instance (since til : UtcDateTime) : DecidablePred (Overlaps since til) := fun _ =>
  inferInstanceAs (Decidable (_ ∧ _))

/-- The events of the table. -/
def eventsOf (codec : DateTimeCodec UtcDateTime) (db : CalendarDatabase) :
    List (TimedEvent UtcDateTime) :=
  db.events.filterMap (tryFrom codec)

/-- The columns of the table stand for the times of the occurrences, and the queries return the events
that they should. -/
structure Exact (codec : DateTimeCodec UtcDateTime) (all : List (OccurrenceForUpsert UtcDateTime))
    (db : CalendarDatabase) : Prop where
  /-- times compare as the texts of their columns do -/
  texts : ∀ t u : UtcDateTime, t.InYears → u.InYears →
    (codec.toRfc3339 t < codec.toRfc3339 u ↔ t.moment < u.moment)
  /-- each row is read, with the times that were stored -/
  read : ∀ row ∈ db.events, ∃ e, tryFrom codec row = some e ∧ e.row = row ∧
    ∃ occ ∈ all, e.startAt = occ.startAt ∧ e.endAt = occ.endAt ∧
      (row.isAllDay = 0 ↔ occ.master.isAllDay = false)
  /-- the events that overlap a range are listed, and no others, in the order of their starts -/
  listed : ∀ order (since til : UtcDateTime), since.InYears → til.InYears →
    ∃ events, listEventsInRange codec true order db since til = .ok events ∧
      events.Perm ((eventsOf codec db).filter (Overlaps since til)) ∧
      events.Pairwise fun e e' => e.startAt.moment ≤ e'.startAt.moment
  /-- of the events around now the one that starts last is found -/
  found : ∀ order now, (codec.plusMinutes now (-15)).InYears → (codec.plusMinutes now 5).InYears →
    ∃ found, findEventForNow codec true order db now = .ok found ∧
      (∀ e, found = some e → e ∈ eventsOf codec db ∧
        IsAround (codec.plusMinutes now (-15)) (codec.plusMinutes now 5) e ∧
        ∀ e' ∈ eventsOf codec db,
          IsAround (codec.plusMinutes now (-15)) (codec.plusMinutes now 5) e' →
            e'.startAt.moment ≤ e.startAt.moment) ∧
      (found = none → ∀ e ∈ eventsOf codec db,
        ¬IsAround (codec.plusMinutes now (-15)) (codec.plusMinutes now 5) e)

section Found

variable {codec : DateTimeCodec UtcDateTime} {db : CalendarDatabase} {row row' : CalendarEventRow}
  {all : List (OccurrenceForUpsert UtcDateTime)} {since til t u : UtcDateTime}
  {e e' : TimedEvent UtcDateTime}

theorem allHold_refreshAll {refreshes : List Refresh} (h : AllHold codec all db)
    (hsub : ∀ r ∈ refreshes, ∀ occ ∈ r.occurrences, occ ∈ all) :
    AllHold codec all (refreshAll codec db refreshes) := by
  induction refreshes generalizing db with
  | nil => exact h
  | cons r refreshes ih =>
    apply ih (h.replaceEvents (hsub r List.mem_cons_self))
    intro r' hr'
    exact hsub r' (List.mem_cons_of_mem _ hr')

theorem lt_iff_of_format (hformat : ∀ t, codec.toRfc3339 t = t.rfc3339) (ht : t.InYears)
    (hu : u.InYears) : codec.toRfc3339 t < codec.toRfc3339 u ↔ t.moment < u.moment := by
  rw [hformat, hformat, UtcDateTime.rfc3339_lt_iff ht hu]

theorem le_iff_of_format (hformat : ∀ t, codec.toRfc3339 t = t.rfc3339) (ht : t.InYears)
    (hu : u.InYears) : codec.toRfc3339 t ≤ codec.toRfc3339 u ↔ t.moment ≤ u.moment := by
  rw [← not_lt, ← not_lt, lt_iff_of_format hformat hu ht]

/-- An event that was read from a row, with times whose years have four digits. -/
structure ReadFrom (codec : DateTimeCodec UtcDateTime) (row : CalendarEventRow)
    (e : TimedEvent UtcDateTime) : Prop where
  row_eq : e.row = row
  startAt : row.startAt = codec.toRfc3339 e.startAt
  endAt : row.endAt = codec.toRfc3339 e.endAt
  start_inYears : e.startAt.InYears
  end_inYears : e.endAt.InYears

/-- Each row is read. -/
theorem exists_readFrom {occ : OccurrenceForUpsert UtcDateTime} (hholds : Holds codec occ row)
    (hread : Readable codec occ) : ∃ e, tryFrom codec row = some e ∧ ReadFrom codec row e ∧
      e.startAt = occ.startAt ∧ e.endAt = occ.endAt := by
  obtain ⟨people, hpeople⟩ := Option.isSome_iff_exists.mp (hread.attendees _ hholds.attendees)
  refine ⟨⟨row, occ.startAt, occ.endAt, people⟩, ?_, ?_, rfl, rfl⟩
  · rw [tryFrom, hholds.startAt, hholds.endAt, hread.startAt, hread.endAt, hpeople]
    rfl
  · exact ⟨rfl, hholds.startAt, hholds.endAt, hread.start_inYears, hread.end_inYears⟩

namespace ReadFrom

theorem inRange_iff (h : ReadFrom codec row e) (hformat : ∀ t, codec.toRfc3339 t = t.rfc3339)
    (hsince : since.InYears) (htil : til.InYears) :
    inRange codec since til row = true ↔ Overlaps since til e := by
  rw [inRange, Bool.and_eq_true, decide_eq_true_eq, decide_eq_true_eq, h.startAt, h.endAt,
    lt_iff_of_format hformat h.start_inYears htil, lt_iff_of_format hformat hsince h.end_inYears,
    Overlaps]

theorem around_iff (h : ReadFrom codec row e) (hformat : ∀ t, codec.toRfc3339 t = t.rfc3339)
    (hsince : since.InYears) (htil : til.InYears) :
    around codec since til row = true ↔ IsAround since til e := by
  rw [around, Bool.and_eq_true, Bool.and_eq_true, decide_eq_true_eq, decide_eq_true_eq,
    decide_eq_true_eq, h.startAt, h.endAt, le_iff_of_format hformat h.start_inYears htil,
    le_iff_of_format hformat hsince h.end_inYears, IsAround, h.row_eq, and_assoc]

theorem start_le_iff (h : ReadFrom codec row e) (h' : ReadFrom codec row' e')
    (hformat : ∀ t, codec.toRfc3339 t = t.rfc3339) :
    row.startAt ≤ row'.startAt ↔ e.startAt.moment ≤ e'.startAt.moment := by
  rw [h.startAt, h'.startAt, le_iff_of_format hformat h.start_inYears h'.start_inYears]

end ReadFrom

theorem filterMap_filter_eq {rows : List CalendarEventRow} (p : CalendarEventRow → Bool)
    (q : TimedEvent UtcDateTime → Prop) [DecidablePred q]
    (h : ∀ row ∈ rows, ∃ e, tryFrom codec row = some e ∧ (p row = true ↔ q e)) :
    (rows.filter p).filterMap (tryFrom codec) =
      (rows.filterMap (tryFrom codec)).filter (fun e => decide (q e)) := by
  rw [List.filterMap_filter, List.filter_filterMap]
  apply List.filterMap_congr
  intro row hrow
  obtain ⟨e, he, hiff⟩ := h row hrow
  rw [he]
  by_cases hp : p row = true
  · rw [if_pos hp, Option.filter_some, if_pos (decide_eq_true (hiff.mp hp))]
  · have hq : ¬q e := fun hq => hp (hiff.mpr hq)
    rw [if_neg hp, Option.filter_some, if_neg (by simpa using hq)]

variable (hformat : ∀ t, codec.toRfc3339 t = t.rfc3339)
  (hrows : ∀ row ∈ db.events, ∃ e, tryFrom codec row = some e ∧ ReadFrom codec row e)

include hrows in
/-- What is read from a row of the table is what it was read from. -/
theorem readFrom_of_tryFrom (hrow : row ∈ db.events) (he : tryFrom codec row = some e) :
    ReadFrom codec row e := by
  obtain ⟨e', he', hfrom⟩ := hrows row hrow
  obtain rfl := Option.some.inj (he'.symm.trans he)
  exact hfrom

include hformat hrows in
theorem exists_listed (order : Arrangement CalendarEventRow) (hsince : since.InYears)
    (htil : til.InYears) :
    ∃ events, listEventsInRange codec true order db since til = .ok events ∧
      events.Perm ((eventsOf codec db).filter (Overlaps since til)) ∧
      events.Pairwise fun e e' => e.startAt.moment ≤ e'.startAt.moment := by
  have hperm := perm_orderBy (·.startAt) order (db.events.filter (inRange codec since til))
  refine ⟨_, rfl, ?_, ?_⟩
  · refine (hperm.filterMap _).trans (.of_eq ?_)
    apply filterMap_filter_eq
    intro row hrow
    obtain ⟨e, he, hfrom⟩ := hrows row hrow
    exact ⟨e, he, hfrom.inRange_iff hformat hsince htil⟩
  · have hmem : ∀ row ∈ orderBy (·.startAt) order (db.events.filter (inRange codec since til)),
        row ∈ db.events := fun row hrow => (List.mem_filter.mp (hperm.mem_iff.mp hrow)).1
    have hsorted := List.Pairwise.and_mem.mp (pairwise_orderBy (·.startAt) order
      (db.events.filter (inRange codec since til)))
    refine List.Pairwise.filterMap _ ?_ hsorted
    rintro row row' ⟨hrow, hrow', hle⟩ e he e' he'
    have hfrom := readFrom_of_tryFrom hrows (hmem row hrow) he
    exact (hfrom.start_le_iff (readFrom_of_tryFrom hrows (hmem row' hrow') he') hformat).mp hle

include hformat hrows in
theorem exists_found (order : Arrangement CalendarEventRow) (hsince : since.InYears)
    (htil : til.InYears) {found : Option (TimedEvent UtcDateTime)}
    (hfound : found = (orderBy (fun row => OrderDual.toDual row.startAt) order
      (db.events.filter (around codec since til))).head?.bind (tryFrom codec)) :
    (∀ e, found = some e → e ∈ eventsOf codec db ∧ IsAround since til e ∧
      ∀ e' ∈ eventsOf codec db, IsAround since til e' → e'.startAt.moment ≤ e.startAt.moment) ∧
      (found = none → ∀ e ∈ eventsOf codec db, ¬IsAround since til e) := by
  have hperm := perm_orderBy (fun row : CalendarEventRow => OrderDual.toDual row.startAt) order
    (db.events.filter (around codec since til))
  have hsorted := pairwise_orderBy (fun row : CalendarEventRow => OrderDual.toDual row.startAt) order
    (db.events.filter (around codec since til))
  -- the rows that the query selects are those of the events around
  have hselected : ∀ e ∈ eventsOf codec db, IsAround since til e → ∃ row ∈ orderBy
      (fun row : CalendarEventRow => OrderDual.toDual row.startAt) order
        (db.events.filter (around codec since til)), ReadFrom codec row e := by
    intro e he haround
    obtain ⟨row, hrow, hread⟩ := List.mem_filterMap.mp he
    have hfrom := readFrom_of_tryFrom hrows hrow hread
    refine ⟨row, hperm.mem_iff.mpr (List.mem_filter.mpr ⟨hrow, ?_⟩), hfrom⟩
    exact (hfrom.around_iff hformat hsince htil).mpr haround
  subst hfound
  rcases horder : orderBy (fun row : CalendarEventRow => OrderDual.toDual row.startAt) order
      (db.events.filter (around codec since til)) with _ | ⟨row, rest⟩
  · refine ⟨by simp, ?_⟩
    intro _ e he haround
    obtain ⟨row, hrow, -⟩ := hselected e he haround
    rw [horder] at hrow
    cases hrow
  · obtain ⟨hrow, hin⟩ := List.mem_filter.mp
      (hperm.mem_iff.mp (horder ▸ List.mem_cons_self : row ∈ _))
    obtain ⟨e, he, hfrom⟩ := hrows row hrow
    rw [List.head?_cons, Option.bind_some, he]
    refine ⟨?_, by simp⟩
    rintro _ ⟨⟩
    refine ⟨List.mem_filterMap.mpr ⟨row, hrow, he⟩, (hfrom.around_iff hformat hsince htil).mp hin, ?_⟩
    intro e' he' haround
    obtain ⟨row', hrow', hfrom'⟩ := hselected e' he' haround
    rw [horder] at hrow' hsorted
    rcases List.mem_cons.mp hrow' with rfl | hrow'
    · rw [← hfrom'.start_le_iff hfrom hformat]
    · rw [← hfrom'.start_le_iff hfrom hformat]
      exact OrderDual.toDual_le_toDual.mp (List.rel_of_pairwise_cons hsorted hrow')

/-- The queries return the events that they should, if each row is one of an occurrence that can be
read back. -/
theorem exact_of_allHold (hformat : ∀ t, codec.toRfc3339 t = t.rfc3339) (h : AllHold codec all db)
    (hread : ∀ occ ∈ all, Readable codec occ) : Exact codec all db := by
  have hrows : ∀ row ∈ db.events, ∃ e, tryFrom codec row = some e ∧ ReadFrom codec row e := by
    intro row hrow
    obtain ⟨occ, hocc, hholds⟩ := h row hrow
    obtain ⟨e, he, hfrom, -⟩ := exists_readFrom hholds (hread occ hocc)
    exact ⟨e, he, hfrom⟩
  refine ⟨fun t u => lt_iff_of_format hformat, ?_, ?_, ?_⟩
  · intro row hrow
    obtain ⟨occ, hocc, hholds⟩ := h row hrow
    obtain ⟨e, he, hfrom, hstart, hend⟩ := exists_readFrom hholds (hread occ hocc)
    refine ⟨e, he, hfrom.row_eq, occ, hocc, hstart, hend, ?_⟩
    rw [hholds.isAllDay]
    cases occ.master.isAllDay <;> simp
  · intro order since til
    exact exists_listed hformat hrows order
  · intro order now hsince htil
    exact ⟨_, rfl, exists_found hformat hrows order hsince htil rfl⟩

/-- **Stored times.** After any refreshes of a table with no events in it, with occurrences of the years
0 to 9999, the queries return exactly the events that overlap a range, and the last one of those around
now. -/
theorem exact_refreshAll (codec : DateTimeCodec UtcDateTime)
    (hformat : ∀ t, codec.toRfc3339 t = t.rfc3339) (db : CalendarDatabase) (hempty : db.events = [])
    (refreshes : List Refresh)
    (hread : ∀ occ ∈ refreshes.flatMap (·.occurrences), Readable codec occ) :
    Exact codec (refreshes.flatMap (·.occurrences)) (refreshAll codec db refreshes) := by
  refine exact_of_allHold hformat (allHold_refreshAll ?_ ?_) hread
  · intro row hrow
    rw [hempty] at hrow
    cases hrow
  · intro r hr occ hocc
    exact List.mem_flatMap.mpr ⟨r, hr, hocc⟩

/-! ## An event -/

/-- Some time on the first of June 2026. -/
def june (secs frac : ℕ) (hsecs : secs < 86400) (hfrac : frac < 1000000000) : UtcDateTime where
  date := ⟨2026, 6, 1, by decide, by decide⟩
  secs := secs
  frac := frac
  secs_lt := hsecs
  frac_lt := by omega
  leap := by omega

/-- Half past nine, to a quarter past ten and half a second. -/
def standup : OccurrenceForUpsert UtcDateTime where
  master := ⟨"standup@example.com", some "Standup", none, none, none, none, false, [], "BEGIN:VEVENT"⟩
  startAt := june 34200 0 (by decide) (by decide)
  endAt := june 36900 500000000 (by decide) (by decide)
  recurrenceId := none

/-- What is written and read of it; times are moved within their day. -/
def standupCodec : DateTimeCodec UtcDateTime where
  toRfc3339 := UtcDateTime.rfc3339
  attendeesToString _ := .ok "[]"
  parseFromRfc3339 text :=
    if text = standup.startAt.rfc3339 then some standup.startAt
    else if text = standup.endAt.rfc3339 then some standup.endAt
    else none
  attendeesFromStr text := if text = "[]" then some [] else none
  plusMinutes t minutes :=
    if h : 0 ≤ t.secs + 60 * minutes ∧ t.secs + 60 * minutes < 86400 ∧ t.frac < 1000000000 then
      ⟨t.date, (t.secs + 60 * minutes).toNat, t.frac, by omega, by omega, by omega⟩
    else t

theorem exact_refreshAll_standup :
    Exact standupCodec [standup] (refreshAll standupCodec ⟨["work"], [], fun _ => none⟩
      [⟨⟨fun _ => true, fun _ => "2026-06-01T08:00:00+00:00", Nat.repr⟩, "work", [standup]⟩]) := by
  refine exact_refreshAll standupCodec (fun _ => rfl) ⟨["work"], [], fun _ => none⟩ rfl
    [⟨⟨fun _ => true, fun _ => "2026-06-01T08:00:00+00:00", Nat.repr⟩, "work", [standup]⟩] ?_
  intro occ hocc
  obtain rfl := List.mem_singleton.mp hocc
  have hne : standup.endAt.rfc3339 ≠ standup.startAt.rfc3339 := by decide
  refine ⟨by decide, by decide, ?_, ?_, ?_⟩
  · simp [standupCodec]
  · simp [standupCodec, hne]
  · rintro json (⟨⟨⟩⟩ | rfl) <;> rfl

example : standup.endAt.rfc3339 = "2026-06-01T10:15:00.500+00:00" := by decide

end Found

end StoredTimes

end MeetilyLocal
