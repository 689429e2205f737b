import MeetilyLocal.Calendar.Durations

/-!
# Times of events

The embedding of `calendar/parser.rs` as far as it makes events of what the `ical` crate has read:
`parse_ics` and `parse_event` with the properties of an event.

The time of a property is in UTC if it ends with a `Z`, in the zone of its `TZID` if there is one, and
else again in UTC. A time of a zone becomes the instant at which it is that time there if there is
exactly one (`applyTz_eq`). It is an error, with which the event is left out, if the time is repeated
when the clocks go back or left out when they go forward (`zonedStart_cases`).
-/

namespace MeetilyLocal

namespace EventTimes

open Durations

/-! ## Time zones -/

/-- `NaiveDateTime`: a time on a clock, as the instant at which it is that time in UTC. -/
structure NaiveDateTime : Type where
  /-- that instant -/
  asUtc : Durations.Instant
  deriving DecidableEq

/-- `chrono::LocalResult`: what a time on a clock can be. -/
inductive LocalResult : Type where
  /-- at no instant -/
  | none
  /-- at one instant -/
  | single (t : Durations.Instant)
  /-- at two instants -/
  | ambiguous (earliest latest : Durations.Instant)

/-- It says at which instants something is so. -/
def LocalResult.Classifies (occurs : Durations.Instant → Prop) : LocalResult → Prop
  | none => ∀ t, ¬occurs t
  | single t => ∀ u, occurs u ↔ u = t
  | ambiguous earliest latest =>
    earliest.time < latest.time ∧ ∀ u, occurs u ↔ u = earliest ∨ u = latest

/-- `LocalResult::single` -/
def LocalResult.single? : LocalResult → Option Durations.Instant
  | single t => some t
  | _ => Option.none

/-- A time zone, as of `chrono_tz`. -/
structure Zone : Type where
  /-- what the clocks show at an instant, in nanoseconds -/
  reading : Durations.Instant → ℤ
  /-- `from_local_datetime` -/
  fromLocal : NaiveDateTime → LocalResult
  /-- it classifies the times on the clocks -/
  classified : ∀ naive,
    LocalResult.Classifies (fun t => reading t = naive.asUtc.time) (fromLocal naive)

/-- It is that time in the zone at exactly this instant. -/
def Zone.OnlyAt (zone : Zone) (naive : NaiveDateTime) (t : Durations.Instant) : Prop :=
  ∀ u, zone.reading u = naive.asUtc.time ↔ u = t

/-- What the parser has from other crates. -/
structure Parsers : Type where
  /-- `NaiveDate::parse_from_str(value, "%Y%m%d")`, at midnight -/
  parseDate : String → Option NaiveDateTime
  /-- `NaiveDateTime::parse_from_str(value, "%Y%m%dT%H%M%S")` -/
  parseDateTime : String → Option NaiveDateTime
  /-- `tzid.parse::<Tz>()` -/
  parseTz : String → Except String Zone
  /-- `{}` of a time -/
  display : NaiveDateTime → String

/-! ## Properties -/

/-- `ical::property::Property` -/
structure Property : Type where
  name : String
  params : Option (List (String × List String))
  value : Option String

/-- `IcalEvent` -/
structure IcalEvent : Type where
  properties : List Property

def eqIgnoreAsciiCase (a b : String) : Bool :=
  a.toList.map Char.toLower == b.toList.map Char.toLower

def prop (ev : IcalEvent) (name : String) : Option Property :=
  ev.properties.find? (·.name == name)

def propValue (ev : IcalEvent) (name : String) : Option String := (prop ev name).bind (·.value)

/-- The first value of a parameter. -/
def Property.param (p : Property) (name : String) : Option String :=
  (p.params.bind fun ps => ps.find? (eqIgnoreAsciiCase ·.1 name)).bind (·.2.head?)

/-- `ends_with('Z')` -/
def endsWithZ (value : String) : Bool := value.toList.getLast? == some 'Z'

def parseNaiveOrUtc (env : Parsers) (value : String) : Option NaiveDateTime :=
  if endsWithZ value then env.parseDateTime (String.ofList value.toList.dropLast)
  else env.parseDateTime value

def applyTz (env : Parsers) (naive : NaiveDateTime) (raw : String) (tzid : Option String) :
    Except String Durations.Instant :=
  if endsWithZ raw then .ok naive.asUtc
  else
    match tzid with
    | some tzid =>
      match env.parseTz tzid with
      | .error e => .error s!"unknown TZID {tzid}: {e}"
      | .ok tz =>
        match (tz.fromLocal naive).single? with
        | some t => .ok t
        | none => .error s!"ambiguous local time {env.display naive} in {tzid}"
    | none => .ok naive.asUtc

/-- It is a date without a time. -/
def Property.isDate (p : Property) (value : String) : Bool :=
  eqIgnoreAsciiCase ((p.param "VALUE").getD "") "DATE" || value.utf8ByteSize == 8

def parseOptionalDatetimeProperty (env : Parsers) (ev : IcalEvent) (name : String) :
    Except String (Option (Durations.Instant × Bool)) :=
  match prop ev name with
  | none => .ok none
  | some p =>
    match p.value with
    | none => .error s!"{name} has no value"
    | some value =>
      if p.isDate value then
        match env.parseDate value with
        | none => .error s!"invalid DATE in {name}: {value}"
        | some d => .ok (some (d.asUtc, true))
      else
        match parseNaiveOrUtc env value with
        | none => .error s!"invalid DATE-TIME in {name}: {value}"
        | some dt => (applyTz env dt value (p.param "TZID")).map fun t => some (t, false)

def parseDatetimeProperty (env : Parsers) (ev : IcalEvent) (name : String) :
    Except String (Durations.Instant × Bool) :=
  match parseOptionalDatetimeProperty env ev name with
  | .error e => .error e
  | .ok none => .error s!"missing {name} property"
  | .ok (some dt) => .ok dt

/-! ## People -/

/-- `strip_ogcs_suffix`: the marker that Outlook Google Calendar Sync appends to addresses. -/
def stripOgcsSuffix (value : String) : String :=
  let trimmed := trim value.toList
  let stem := trimmed.take (trimmed.length - 5)
  if (trimmed.drop stem.length).map Char.toLower = ".ogcs".toList then String.ofList stem
  else String.ofList trimmed

/-- `strip_prefix("mailto:").or(Some(v))` -/
def stripMailto (value : String) : String :=
  if "mailto:".toList.isPrefixOf value.toList then String.ofList (value.toList.drop 7) else value

/-- The name and the address. -/
def parseOrganizer (ev : IcalEvent) : Option String × Option String :=
  match prop ev "ORGANIZER" with
  | none => (none, none)
  | some p =>
    ((p.param "CN").map stripOgcsSuffix, p.value.map fun v => stripOgcsSuffix (stripMailto v))

/-- A parameter of an attendee; the last one of its name counts. -/
def setParam (attendee : Attendee) (param : String × List String) : Attendee :=
  let v := param.2.head?
  let name := param.1.toList.map Char.toUpper
  if name = "CN".toList then { attendee with name := v.map stripOgcsSuffix }
  else if name = "ROLE".toList then { attendee with role := v }
  else if name = "PARTSTAT".toList then { attendee with status := v }
  else attendee

def parseAttendees (ev : IcalEvent) : List Attendee :=
  (ev.properties.filter (·.name == "ATTENDEE")).map fun p =>
    (p.params.getD []).foldl setParam
      ⟨none, p.value.map fun v => stripOgcsSuffix (stripMailto v), none, none, false⟩

/-! ## Events -/

def serializeProperty (p : Property) : String :=
  p.name ++
    String.join ((p.params.getD []).map fun (k, v) => ";" ++ k ++ "=" ++ ",".intercalate v) ++ ":" ++
    p.value.getD ""

def serializeEvent (ev : IcalEvent) : String :=
  "BEGIN:VEVENT\n" ++ String.join (ev.properties.map fun p => serializeProperty p ++ "\n") ++
    "END:VEVENT"

def buildRruleBlock (ev : IcalEvent) : Option String := do
  let rrule ← propValue ev "RRULE"
  let dtstart ← prop ev "DTSTART"
  let more := ["EXDATE", "RDATE", "EXRULE"].flatMap fun name =>
    (ev.properties.filter (·.name == name)).map fun p => "\n" ++ serializeProperty p
  some (serializeProperty dtstart ++ "\n" ++ s!"RRULE:{rrule}" ++ String.join more)

/-- An event as it is parsed, with its times. -/
structure MasterEvent : Type extends ParsedEvent where
  /-- which occurrence it stands for -/
  recurrenceId : Option Durations.Instant
  /-- when it starts -/
  startAt : Durations.Instant
  /-- when it ends -/
  endAt : Durations.Instant
  /-- what the `rrule` crate reads -/
  rruleBlock : Option String

/-- `parse_event`, from the end of the event on; none where it panics. -/
def finishEvent (env : Parsers) (ev : IcalEvent) (uid : String) (startAt : Durations.Instant)
    (startIsAllDay : Bool) : Option (Except String MasterEvent) :=
  match parseOptionalDatetimeProperty env ev "DTEND" with
  | .error e => some (.error e)
  | .ok dtEnd =>
    (endAt startAt startIsAllDay (dtEnd.map (·.1)) ((propValue ev "DURATION").map (·.toList))).map
      fun endAt =>
        (parseOptionalDatetimeProperty env ev "RECURRENCE-ID").map fun recurrence =>
          { icsUid := uid
            summary := propValue ev "SUMMARY"
            description := propValue ev "DESCRIPTION"
            location := propValue ev "LOCATION"
            organizerName := (parseOrganizer ev).1
            organizerEmail := (parseOrganizer ev).2
            isAllDay := startIsAllDay
            attendees := parseAttendees ev
            rawIcs := serializeEvent ev
            recurrenceId := recurrence.map (·.1)
            startAt := startAt
            endAt := endAt
            rruleBlock := buildRruleBlock ev }

def parseEvent (env : Parsers) (ev : IcalEvent) : Option (Except String MasterEvent) :=
  match propValue ev "UID" with
  | none => some (.error "VEVENT missing UID")
  | some uid =>
    match parseDatetimeProperty env ev "DTSTART" with
    | .error e => some (.error e)
    | .ok (startAt, startIsAllDay) => finishEvent env ev uid startAt startIsAllDay

/-- The events of a calendar; one with an error is left out, with a warning. -/
def parseEvents (env : Parsers) : List IcalEvent → Option (List MasterEvent)
  | [] => some []
  | ev :: evs => do
    match ← parseEvent env ev with
    | .ok parsed => (parseEvents env evs).map (parsed :: ·)
    | .error _ => parseEvents env evs

/-- `parse_ics`, on the calendars that the `ical` crate reads. -/
def parseIcs (env : Parsers) : List (Except String (List IcalEvent)) →
    Option (Except String (List MasterEvent))
  | [] => some (.ok [])
  | .error e :: _ => some (.error s!"ICS parse error: {e}")
  | .ok evs :: cals => do
    let events ← parseEvents env evs
    let rest ← parseIcs env cals
    some (rest.map (events ++ ·))

/-! ## Times of a zone -/

section Zoned

variable {env : Parsers} {ev : IcalEvent} {raw tzid uid : String} {naive : NaiveDateTime}
  {zone : Zone} {t : Durations.Instant}

theorem LocalResult.Classifies.single?_eq_some_iff {occurs : Durations.Instant → Prop}
    {result : LocalResult}
    (h : result.Classifies occurs) : result.single? = some t ↔ ∀ u, occurs u ↔ u = t := by
  cases result with
  | none =>
    refine iff_of_false (by simp [single?]) ?_
    intro hall
    exact h t ((hall t).mpr rfl)
  | single t' =>
    rw [single?, Option.some_inj]
    constructor
    · rintro rfl
      exact h
    · intro hall
      exact (hall t').mp ((h t').mpr rfl)
  | ambiguous earliest latest =>
    obtain ⟨hlt, hoccurs⟩ := h
    refine iff_of_false (by simp [single?]) ?_
    intro hall
    have hearliest := (hall earliest).mp ((hoccurs earliest).mpr (.inl rfl))
    have hlatest := (hall latest).mp ((hoccurs latest).mpr (.inr rfl))
    rw [hearliest, hlatest] at hlt
    exact lt_irrefl _ hlt

theorem Zone.single?_fromLocal (zone : Zone) (naive : NaiveDateTime) (t : Durations.Instant) :
    (zone.fromLocal naive).single? = some t ↔ zone.OnlyAt naive t :=
  (zone.classified naive).single?_eq_some_iff

/-- A time of a zone becomes the instant at which it is that time there, if there is exactly one. -/
theorem applyTz_eq (hraw : endsWithZ raw = false) (hzone : env.parseTz tzid = .ok zone)
    (h : zone.OnlyAt naive t) : applyTz env naive raw (some tzid) = .ok t := by
  rw [applyTz, hraw, if_neg Bool.false_ne_true]
  simp only [hzone, (zone.single?_fromLocal naive t).mpr h]

/-- Else it is an error. -/
theorem applyTz_eq_error (hraw : endsWithZ raw = false) (hzone : env.parseTz tzid = .ok zone)
    (h : ¬∃ t, zone.OnlyAt naive t) : applyTz env naive raw (some tzid) =
      .error s!"ambiguous local time {env.display naive} in {tzid}" := by
  have hnone : (zone.fromLocal naive).single? = none := by
    rw [Option.eq_none_iff_forall_ne_some]
    intro t ht
    exact h ⟨t, (zone.single?_fromLocal naive t).mp ht⟩
  rw [applyTz, hraw, if_neg Bool.false_ne_true]
  simp only [hzone, hnone]

/-- An event starts at a time of a zone. -/
structure ZonedStart (env : Parsers) (ev : IcalEvent) (raw tzid : String) (naive : NaiveDateTime)
    (zone : Zone) : Prop where
  /-- its `DTSTART` is a time with a `TZID` -/
  dtstart : ∃ p, prop ev "DTSTART" = some p ∧ p.value = some raw ∧ p.isDate raw = false ∧
    p.param "TZID" = some tzid
  /-- it is not in UTC -/
  notUtc : endsWithZ raw = false
  /-- the time can be read -/
  parsed : env.parseDateTime raw = some naive
  /-- the zone is known -/
  known : env.parseTz tzid = .ok zone

theorem ZonedStart.parseDatetimeProperty_eq (h : ZonedStart env ev raw tzid naive zone) :
    parseDatetimeProperty env ev "DTSTART" =
      (applyTz env naive raw (some tzid)).map fun t => (t, false) := by
  obtain ⟨p, hp, hvalue, hdate, htzid⟩ := h.dtstart
  have hnaive : parseNaiveOrUtc env raw = some naive := by
    rw [parseNaiveOrUtc, h.notUtc, if_neg Bool.false_ne_true, h.parsed]
  rw [parseDatetimeProperty, parseOptionalDatetimeProperty]
  simp only [hp, hvalue, hdate, hnaive, htzid, Bool.false_eq_true, if_false]
  cases applyTz env naive raw (some tzid) <;> rfl

theorem parseEvents_cons_of_error {e : String} (h : parseEvent env ev = some (.error e))
    (evs : List IcalEvent) : parseEvents env (ev :: evs) = parseEvents env evs := by
  simp [parseEvents, h]

/-- **The start of an event** at a time of a zone is the instant at which it is that time there, if
there is exactly one. If the time is repeated or does not exist, the event is left out. -/
theorem zonedStart_cases (h : ZonedStart env ev raw tzid naive zone)
    (huid : propValue ev "UID" = some uid) :
    (∀ t, zone.OnlyAt naive t →
      applyTz env naive raw (some tzid) = .ok t ∧ zone.reading t = naive.asUtc.time ∧
        parseEvent env ev = finishEvent env ev uid t false) ∧
      ((¬∃ t, zone.OnlyAt naive t) →
        parseEvent env ev =
            some (.error s!"ambiguous local time {env.display naive} in {tzid}") ∧
          ∀ evs, parseEvents env (ev :: evs) = parseEvents env evs) := by
  constructor
  · intro t honly
    have happly := applyTz_eq h.notUtc h.known honly
    refine ⟨happly, (honly t).mpr rfl, ?_⟩
    rw [parseEvent]
    simp only [huid, h.parseDatetimeProperty_eq, happly, Except.map]
  · intro hnone
    have herror : parseEvent env ev =
        some (.error s!"ambiguous local time {env.display naive} in {tzid}") := by
      rw [parseEvent]
      simp only [huid, h.parseDatetimeProperty_eq, applyTz_eq_error h.notUtc h.known hnone,
        Except.map]
    exact ⟨herror, parseEvents_cons_of_error herror⟩

/-! ## The end of summer time -/

/-- An hour, in nanoseconds. -/
def hour : ℤ := 3600000000000

/-- When the clocks of London go back in 2026: at two o'clock to one o'clock. -/
def fallBack : ℤ := 1792890000000000000

/-- An hour earlier, if that is in range. -/
def earlier (t : Durations.Instant) : Option Durations.Instant :=
  if h : minUtc ≤ t.time - hour then
    some ⟨t.time - hour, h, (Int.sub_le_self _ (by decide)).trans t.inRange.2⟩
  else none

theorem eq_of_time_eq {u : Durations.Instant} (h : t.time = u.time) : t = u := by
  cases t
  cases u
  cases h
  rfl

theorem earlier_eq_some_iff {u : Durations.Instant} : earlier t = some u ↔ u.time + hour = t.time := by
  rw [earlier]
  split
  next h =>
    rw [Option.some_inj]
    constructor
    · rintro rfl
      exact Int.sub_add_cancel _ _
    · intro heq
      apply eq_of_time_eq
      simp only
      omega
  next h =>
    refine iff_of_false (by simp) ?_
    intro heq
    have hin := u.inRange.1
    omega

/-- London in the summer and autumn of 2026. -/
def london : Zone where
  reading t := if t.time < fallBack then t.time + hour else t.time
  fromLocal naive :=
    match earlier naive.asUtc with
    | none => if naive.asUtc.time < fallBack then .none else .single naive.asUtc
    | some summer =>
      if naive.asUtc.time < fallBack then .single summer
      else if summer.time < fallBack then .ambiguous summer naive.asUtc
      else .single naive.asUtc
  classified naive := by
    have hour_pos : (0 : ℤ) < hour := by decide
    -- it is that time in summer an hour before it is in UTC, and in winter when it is in UTC
    have hoccurs : ∀ u : Durations.Instant, (if u.time < fallBack then u.time + hour else u.time) =
        naive.asUtc.time ↔ u.time < fallBack ∧ earlier naive.asUtc = some u ∨
          ¬u.time < fallBack ∧ u = naive.asUtc := by
      intro u
      rw [earlier_eq_some_iff]
      split
      next h => simp [h]
      next h =>
        have heq : u.time = naive.asUtc.time ↔ u = naive.asUtc :=
          ⟨eq_of_time_eq, fun h => congrArg _ h⟩
        simp [h, heq]
    simp only [hoccurs]
    cases hsummer : earlier naive.asUtc with
    | none =>
      split_ifs with hlt
      · rintro u (⟨-, hu⟩ | ⟨hu, rfl⟩)
        · cases hu
        · exact hu hlt
      · intro u
        constructor
        · rintro (⟨-, hu⟩ | ⟨-, rfl⟩)
          · cases hu
          · rfl
        · rintro rfl
          exact .inr ⟨hlt, rfl⟩
    | some summer =>
      have htime := earlier_eq_some_iff.mp hsummer
      simp only [Option.some_inj]
      split_ifs with hlt hboth
      · intro u
        constructor
        · rintro (⟨-, rfl⟩ | ⟨hu, rfl⟩)
          · rfl
          · exact absurd hlt hu
        · rintro rfl
          exact .inl ⟨by omega, rfl⟩
      · refine ⟨by omega, ?_⟩
        intro u
        constructor
        · rintro (⟨-, rfl⟩ | ⟨-, rfl⟩)
          · exact .inl rfl
          · exact .inr rfl
        · rintro (rfl | rfl)
          · exact .inl ⟨hboth, rfl⟩
          · exact .inr ⟨hlt, rfl⟩
      · intro u
        constructor
        · rintro (⟨hu, rfl⟩ | ⟨-, rfl⟩)
          · exact absurd hu hboth
          · rfl
        · rintro rfl
          exact .inr ⟨hlt, rfl⟩

/-- 1:30 on the day on which the clocks go back, and 10:30. -/
def halfPastOne : NaiveDateTime := ⟨⟨1792891800000000000, by decide⟩⟩
def halfPastTen : NaiveDateTime := ⟨⟨1792924200000000000, by decide⟩⟩

/-- The parsers, as far as these times and this zone. -/
def londonParsers : Parsers where
  parseDate _ := none
  parseDateTime value :=
    if value = "20261025T013000" then some halfPastOne
    else if value = "20261025T103000" then some halfPastTen
    else none
  parseTz tzid := if tzid = "Europe/London" then .ok london else .error "failed to parse timezone"
  display naive := if naive = halfPastOne then "2026-10-25 01:30:00" else "2026-10-25 10:30:00"

/-- An event in London. -/
def londonEvent (start : String) : IcalEvent where
  properties :=
    [⟨"UID", none, some "standup@example.com"⟩,
      ⟨"DTSTART", some [("TZID", ["Europe/London"])], some start⟩]

theorem zonedStart_cases_halfPastTen :
    parseEvent londonParsers (londonEvent "20261025T103000") =
      finishEvent londonParsers (londonEvent "20261025T103000") "standup@example.com"
        halfPastTen.asUtc false := by
  have hstart : ZonedStart londonParsers (londonEvent "20261025T103000") "20261025T103000"
      "Europe/London" halfPastTen london :=
    ⟨⟨_, rfl, rfl, by decide, by decide⟩, by decide, by decide, rfl⟩
  refine ((zonedStart_cases hstart rfl).1 _ ?_).2.2
  exact (london.single?_fromLocal halfPastTen _).mp (by decide)

/-- The hour from one to two o'clock is there twice. -/
theorem not_exists_applyTz_repeated :
    ¬∀ (env : Parsers) (naive : NaiveDateTime) (raw tzid : String) (zone : Zone),
      endsWithZ raw = false → env.parseTz tzid = .ok zone →
      (∃ t, zone.reading t = naive.asUtc.time) →
      ∃ t, applyTz env naive raw (some tzid) = .ok t ∧ zone.reading t = naive.asUtc.time := by
  intro h
  obtain ⟨t, ht, -⟩ := h londonParsers halfPastOne "20261025T013000" "Europe/London" london
    (by decide) rfl ⟨halfPastOne.asUtc, by decide⟩
  have herror : applyTz londonParsers halfPastOne "20261025T013000" (some "Europe/London") =
      .error "ambiguous local time 2026-10-25 01:30:00 in Europe/London" := by decide
  rw [herror] at ht
  cases ht

end Zoned

end EventTimes

end MeetilyLocal
