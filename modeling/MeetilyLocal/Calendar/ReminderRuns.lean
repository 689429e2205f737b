import MeetilyLocal.Calendar.Reminders
import Mathlib.Tactic.Linarith

/-!
# Reminders over runs

What a tick shows and what a refresh stores, and over whole runs: while no event that is due was
stored again since it was reminded of, each occurrence has one reminder, from the first tick at
which it was due (`oneEach_of_undisturbed`).
-/

namespace MeetilyLocal

open CalendarRepository ReminderAccount

variable {codec : CalendarCodec} {settings : ReminderSettings} {times : ℤ → Prop}
  {db db' : CalendarDatabase} {row : CalendarEventRow} {minutes : List UInt64} {now : ℤ}
  {notified : List String} {a : ReminderAccount} {o : Occurrence}

/-! ## Thresholds -/

/-- Seconds are within one of the thresholds if they are within the largest. -/
theorem exists_le_iff_maxMinutes {s : ℤ} (hminutes : minutes ≠ []) :
    (∃ t ∈ minutes, s ≤ 60 * (t.toNat : ℤ)) ↔ s ≤ 60 * maxMinutes minutes := by
  obtain ⟨m, hm⟩ : ∃ m, (minutes.map UInt64.toNat).max? = some m := by
    rw [← Option.isSome_iff_exists, List.isSome_max?_iff]
    simpa using hminutes
  obtain ⟨hmem, hle⟩ := List.max?_eq_some_iff.mp hm
  rw [maxMinutes, hm, Option.getD_some]
  constructor
  · rintro ⟨t, ht, hs⟩
    have := hle t.toNat (List.mem_map_of_mem ht)
    omega
  · intro hs
    obtain ⟨t, ht, rfl⟩ := List.mem_map.mp hmem
    exact ⟨t, ht, hs⟩

theorem minutes_le_iff (s : ℤ) (t : ℕ) : ((s : ℚ) / 60 ≤ t) ↔ s ≤ 60 * (t : ℤ) := by
  rw [div_le_iff₀ (by norm_num), mul_comm]
  exact_mod_cast Iff.rfl

theorem minutes_neg_iff (s : ℤ) : ((s : ℚ) / 60 < 0) ↔ s < 0 := by
  rw [div_lt_iff₀ (by norm_num), zero_mul]
  exact_mod_cast Iff.rfl

theorem numSeconds_nonneg {d : ℤ} (h : 0 < d) : 0 ≤ numSeconds d :=
  Int.tdiv_nonneg h.le (by norm_num)

/-- What is within a number of minutes is less than a second beyond them. -/
theorem lt_of_numSeconds_le {d n : ℤ} (hd : 0 < d) (h : numSeconds d ≤ 60 * n) :
    d < (n + 1) * 60000000000 := by
  rw [numSeconds, Int.tdiv_eq_ediv_of_nonneg hd.le] at h
  omega

/-- The reminder of an event, and when it is due one. -/
theorem isSome_dueReminder_iff (hminutes : minutes ≠ []) {event : UpcomingEvent}
    (hstart : now < event.startAt) :
    (dueReminder (minutes.mergeSort fun a b => b ≤ a) now notified event).isSome ↔
      event.id ∉ notified ∧ numSeconds (event.startAt - now) ≤ 60 * maxMinutes minutes := by
  have hnonneg := numSeconds_nonneg (sub_pos.mpr hstart)
  unfold dueReminder
  split
  · next hnotified => simp [hnotified]
  next hnotified =>
  rw [if_neg (by rw [minutes_neg_iff]; omega), Option.isSome_map, List.find?_isSome,
    ← exists_le_iff_maxMinutes hminutes, and_iff_right hnotified]
  simp only [List.mem_mergeSort, decide_eq_true_eq, minutes_le_iff]

theorem id_dueReminder {thresholds : List UInt64} {event : UpcomingEvent} {r : DueReminder}
    (h : dueReminder thresholds now notified event = some r) : r.id = event.id := by
  unfold dueReminder at h
  split at h
  · cases h
  · simp only at h
    split at h
    · cases h
    · obtain ⟨t, -, rfl⟩ := Option.map_eq_some_iff.mp h
      rfl

/-! ## Rows -/

/-- The reminder of a row that is listed. -/
def reminderOf (codec : CalendarCodec) (minutes : List UInt64) (now : ℤ) (notified : List String)
    (row : CalendarEventRow) : Option DueReminder :=
  ((tryFrom codec row).filter fun e => !e.isAllDay && now < e.startAt).bind fun e =>
    dueReminder (minutes.mergeSort fun a b => b ≤ a) now notified ⟨e.id, e.summary, e.startAt⟩

/-- What a readable row is read as. -/
theorem exists_tryFrom (hlawful : codec.Lawful times) (h : Readable codec times row) :
    ∃ e, tryFrom codec row = some e ∧ e.id = row.id ∧ e.isAllDay = (row.isAllDay != 0) ∧
      codec.parseFromRfc3339 row.startAt = some e.startAt := by
  obtain ⟨start, hstart, hstartAt⟩ := h.start
  obtain ⟨finish, hfinish, hendAt⟩ := h.finish
  obtain ⟨attendees, hattendees⟩ := Option.isSome_iff_exists.mp h.attendees
  have hparsed := hlawful.parse start hstart
  have hended := hlawful.parse finish hfinish
  cases hread : tryFrom codec row with
  | none => simp [tryFrom, hstartAt, hendAt, hparsed, hended, hattendees] at hread
  | some e =>
    simp only [tryFrom, hstartAt, hendAt, hparsed, hended, hattendees, Option.bind_eq_bind,
      Option.bind_some, Option.pure_def, Option.some.injEq] at hread
    obtain rfl := hread
    exact ⟨_, rfl, rfl, rfl, hstartAt ▸ hparsed⟩

theorem isSome_reminderOf_iff (hlawful : codec.Lawful times) (h : Readable codec times row)
    (hminutes : minutes ≠ []) :
    (reminderOf codec minutes now notified row).isSome ↔
      IsDue codec minutes now row ∧ row.id ∉ notified := by
  obtain ⟨e, he, hid, hallDay, hstart⟩ := exists_tryFrom hlawful h
  unfold reminderOf IsDue
  rw [he, Option.filter_some]
  by_cases hupcoming : row.isAllDay = 0 ∧ now < e.startAt
  · rw [if_pos (by simpa [hallDay] using hupcoming), Option.bind_some,
      isSome_dueReminder_iff hminutes hupcoming.2, hid, and_comm]
    refine and_congr_left fun _ => ⟨fun hle => ⟨e.startAt, hstart, hupcoming.1, hupcoming.2, hle⟩, ?_⟩
    rintro ⟨start, hparsed, -, -, hle⟩
    obtain rfl := Option.some.inj (hstart.symm.trans hparsed)
    exact hle
  · rw [if_neg (by simpa [hallDay] using hupcoming)]
    refine iff_of_false (by simp) ?_
    rintro ⟨⟨start, hparsed, hallDay', hnow, -⟩, -⟩
    obtain rfl := Option.some.inj (hstart.symm.trans hparsed)
    exact hupcoming ⟨hallDay', hnow⟩

theorem id_reminderOf {r : DueReminder}
    (h : reminderOf codec minutes now notified row = some r) : r.id = row.id := by
  obtain ⟨e, he, hdue⟩ := Option.bind_eq_some_iff.mp h
  obtain ⟨hread, -⟩ := Option.filter_eq_some_iff.mp he
  rw [id_dueReminder hdue]
  simp only [tryFrom, Option.bind_eq_bind, Option.bind_eq_some_iff, Option.pure_def,
    Option.some.injEq] at hread
  obtain ⟨_, -, _, -, _, -, rfl⟩ := hread
  rfl

/-- The reminders of a tick are those of the rows in its range. -/
theorem reminderTick_eq {order : Arrangement CalendarEventRow} {til : ℤ}
    (hshow : settings.showMeetingReminders = true) (hminutes : settings.meetingReminderMinutes ≠ [])
    (hhorizon : horizon now (maxMinutes settings.meetingReminderMinutes) = some til) :
    reminderTick codec true order settings now db notified =
      some ((orderBy (·.startAt) order (db.events.filter (inRange codec now til))).filterMap
        (reminderOf codec settings.meetingReminderMinutes now notified)) := by
  have hempty : settings.meetingReminderMinutes.isEmpty = false := by simpa using hminutes
  simp only [reminderTick, hshow, hempty, hhorizon, listEventsInRange, dueReminders, Bool.not_true,
    Bool.or_false, if_false, if_true, Bool.false_eq_true, List.filterMap_map, Option.some.injEq]
  rw [← List.filterMap_eq_filter, List.filterMap_filterMap, List.filterMap_filterMap]
  refine List.filterMap_congr fun row _ => ?_
  unfold reminderOf
  cases tryFrom codec row with
  | none => rfl
  | some e =>
    simp only [Option.bind_some, Option.filter_some, Option.guard]
    split <;> rfl

/-! ## A tick -/

theorem CalendarDatabase.Sound.eq_of_id (h : db.Sound codec times) {row' : CalendarEventRow}
    (hrow : row ∈ db.events) (hrow' : row' ∈ db.events) (hid : row.id = row'.id) : row = row' :=
  List.inj_on_of_nodup_map h.ids hrow hrow' hid

/-- An occurrence has one row. -/
theorem CalendarDatabase.Sound.eq_of_occurrence (h : db.Sound codec times)
    {row' : CalendarEventRow} (hrow : row ∈ db.events) (hrow' : row' ∈ db.events)
    (ho : occurrenceOf row = occurrenceOf row') : row = row' := by
  apply List.inj_on_of_nodup_map h.keys hrow hrow'
  obtain ⟨hsource, huid, hrecurrence, -⟩ := Occurrence.mk.inj ho
  simp only [eventKey, hsource, huid, hrecurrence]

/-- An event that is due is in the range of the query. -/
theorem inRange_of_isDue (hlawful : codec.Lawful times) (h : Readable codec times row)
    (hnow : times now) (htil : times (now + (maxMinutes minutes + 1) * 60000000000))
    (hdue : IsDue codec minutes now row)
    (hends : ∃ finish, codec.parseFromRfc3339 row.endAt = some finish ∧ now < finish) :
    inRange codec now (now + (maxMinutes minutes + 1) * 60000000000) row = true := by
  obtain ⟨t, ht, hstartAt⟩ := h.start
  obtain ⟨f, hf, hendAt⟩ := h.finish
  obtain ⟨start, hparsed, -, hfuture, hwithin⟩ := hdue
  obtain ⟨finish, hfinish, hends⟩ := hends
  obtain rfl : t = start := by
    rw [hstartAt, hlawful.parse t ht] at hparsed
    exact Option.some.inj hparsed
  obtain rfl : f = finish := by
    rw [hendAt, hlawful.parse f hf] at hfinish
    exact Option.some.inj hfinish
  have hlt : t < now + (maxMinutes minutes + 1) * 60000000000 := by
    have := lt_of_numSeconds_le (sub_pos.mpr hfuture) hwithin
    linarith
  rw [inRange, hstartAt, hendAt, Bool.and_eq_true, decide_eq_true_eq, decide_eq_true_eq,
    hlawful.order _ _ ht htil, hlawful.order _ _ hnow hf]
  exact ⟨hlt, hends⟩

/-- Of the elements of a list with a property that only one can have, there is one. -/
theorem countP_eq_one {α : Type*} [DecidableEq α] {l : List α} {p : α → Bool} (hnodup : l.Nodup)
    {x : α} (hx : x ∈ l) (hpx : p x = true) (hunique : ∀ y ∈ l, p y = true → y = x) :
    l.countP p = 1 := by
  rw [← List.count_eq_one_of_mem hnodup hx, List.count]
  refine List.countP_congr fun y hy => ?_
  rw [beq_iff_eq]
  constructor
  · exact hunique y hy
  · rintro rfl
    exact hpx

/-- Reminders are counted by the rows they are of. -/
theorem countFor_filterMap (hsound : db.Sound codec times) {rows : List CalendarEventRow}
    {f : CalendarEventRow → Option DueReminder} (hrows : ∀ row ∈ rows, row ∈ db.events)
    (hid : ∀ row r, f row = some r → r.id = row.id) (o : Occurrence) :
    countFor db o (rows.filterMap f) =
      rows.countP fun row => (f row).isSome && occurrenceOf row == o := by
  rw [countFor, List.countP_filterMap]
  refine List.countP_congr fun row hrow => ?_
  cases hf : f row with
  | none => simp
  | some r =>
    simp only [Option.map_some, Option.getD_some, Option.isSome_some, Bool.true_and,
      List.any_eq_true, Bool.and_eq_true, beq_iff_eq, hid row r hf]
    constructor
    · rintro ⟨row', hrow', hsame, ho⟩
      rwa [← hsound.eq_of_id hrow' (hrows row hrow) hsame]
    · exact fun ho => ⟨row, hrows row hrow, rfl, ho⟩

/-- What a tick shows: a reminder for each row that is due and was not notified. -/
structure Shows (codec : CalendarCodec) (minutes : List UInt64) (now : ℤ)
    (db : CalendarDatabase) (notified : List String) (sent : List DueReminder) : Prop where
  /-- such a row has one -/
  one : ∀ row ∈ db.events, IsDue codec minutes now row → row.id ∉ notified →
    countFor db (occurrenceOf row) sent = 1
  /-- an occurrence without such a row has none -/
  none : ∀ o, (∀ row ∈ db.events, occurrenceOf row = o → IsDue codec minutes now row →
    row.id ∈ notified) → countFor db o sent = 0
  /-- the ids are those of such rows -/
  ids : ∀ row ∈ db.events, row.id ∈ sent.map (·.id) ↔
    IsDue codec minutes now row ∧ row.id ∉ notified

theorem shows_reminderTick {order : Arrangement CalendarEventRow} (hlawful : codec.Lawful times)
    (hsound : db.Sound codec times) (hshow : settings.showMeetingReminders = true)
    (hminutes : settings.meetingReminderMinutes ≠ []) (hnow : times now)
    (hhorizon : horizon now (maxMinutes settings.meetingReminderMinutes) =
      some (now + (maxMinutes settings.meetingReminderMinutes + 1) * 60000000000))
    (htil : times (now + (maxMinutes settings.meetingReminderMinutes + 1) * 60000000000))
    (hends : ∀ row ∈ db.events, IsDue codec settings.meetingReminderMinutes now row →
      ∃ finish, codec.parseFromRfc3339 row.endAt = some finish ∧ now < finish) :
    ∃ sent, reminderTick codec true order settings now db notified = some sent ∧
      Shows codec settings.meetingReminderMinutes now db notified sent := by
  refine ⟨_, reminderTick_eq hshow hminutes hhorizon, ?_⟩
  have hperm := perm_orderBy (·.startAt) order (db.events.filter (inRange codec now
    (now + (maxMinutes settings.meetingReminderMinutes + 1) * 60000000000)))
  generalize hrows : orderBy (·.startAt) order (db.events.filter (inRange codec now
    (now + (maxMinutes settings.meetingReminderMinutes + 1) * 60000000000))) = rows at hperm ⊢
  have hmem : ∀ row ∈ rows, row ∈ db.events := fun row hrow =>
    (List.mem_filter.mp (hperm.mem_iff.mp hrow)).1
  have hlisted : ∀ row ∈ db.events, IsDue codec settings.meetingReminderMinutes now row →
      row ∈ rows := fun row hrow hdue => hperm.mem_iff.mpr (List.mem_filter.mpr ⟨hrow,
    inRange_of_isDue hlawful (hsound.readable row hrow) hnow htil hdue (hends row hrow hdue)⟩)
  have hsome : ∀ row ∈ db.events,
      (reminderOf codec settings.meetingReminderMinutes now notified row).isSome ↔
        IsDue codec settings.meetingReminderMinutes now row ∧ row.id ∉ notified :=
    fun row hrow => isSome_reminderOf_iff hlawful (hsound.readable row hrow) hminutes
  have hid : ∀ row r, reminderOf codec settings.meetingReminderMinutes now notified row = some r →
      r.id = row.id := fun row r h => id_reminderOf h
  have hcount := countFor_filterMap hsound hmem hid
  refine ⟨?_, ?_, ?_⟩
  · intro row hrow hdue hnew
    rw [hcount]
    refine countP_eq_one (hperm.nodup_iff.mpr (hsound.ids.of_map.filter _)) (hlisted row hrow hdue)
      ?_ ?_
    · simp [(hsome row hrow).mpr ⟨hdue, hnew⟩]
    · intro row' hrow' hp
      simp only [Bool.and_eq_true, beq_iff_eq] at hp
      exact hsound.eq_of_occurrence (hmem row' hrow') hrow hp.2
  · intro o ho
    rw [hcount, List.countP_eq_zero]
    intro row hrow hp
    simp only [Bool.and_eq_true, beq_iff_eq] at hp
    obtain ⟨hdue, hnew⟩ := (hsome row (hmem row hrow)).mp hp.1
    exact hnew (ho row (hmem row hrow) hp.2 hdue)
  · intro row hrow
    rw [← hsome row hrow]
    simp only [List.map_filterMap, List.mem_filterMap, Option.map_eq_some_iff]
    constructor
    · rintro ⟨row', hrow', r, hr, hid⟩
      rw [id_reminderOf hr] at hid
      rw [← hsound.eq_of_id (hmem row' hrow') hrow hid, hr]
      rfl
    · intro his
      obtain ⟨r, hr⟩ := Option.isSome_iff_exists.mp his
      exact ⟨row, hlisted row hrow ((hsome row hrow).mp his).1, r, hr, id_reminderOf hr⟩

/-! ## A refresh -/

section Refresh

variable {env : SqlEnv} {sourceId : String} {k : ℕ} {occurrences : List (OccurrenceForUpsert ℤ)}

/-- An upsert keeps the tables sound, and the rows of other sources. -/
theorem CalendarDatabase.Sound.upsertEvent (h : db.Sound codec times)
    (hread : Readable codec times row)
    (hupsert : CalendarRepository.upsertEvent db row = .ok db') :
    db'.Sound codec times ∧
      ∀ stored ∈ db'.events, stored.sourceId ≠ row.sourceId → stored ∈ db.events := by
  rw [CalendarRepository.upsertEvent] at hupsert
  split at hupsert
  · cases hupsert
  next hid =>
  split at hupsert
  · obtain rfl := Except.ok.inj hupsert
    refine ⟨⟨?_, ?_, ?_⟩, ?_⟩
    · have hids : ((fun other : CalendarEventRow => other.id) ∘ fun other =>
          if eventKey other == eventKey row then
            { row with
              id := other.id, sourceId := other.sourceId, icsUid := other.icsUid,
              recurrenceId := other.recurrenceId }
          else other) = fun other => other.id := by
        funext other
        simp only [Function.comp_apply]
        split <;> rfl
      rw [List.map_map, hids]
      exact h.ids
    · have hkeys : (eventKey ∘ fun other =>
          if eventKey other == eventKey row then
            { row with
              id := other.id, sourceId := other.sourceId, icsUid := other.icsUid,
              recurrenceId := other.recurrenceId }
          else other) = eventKey := by
        funext other
        simp only [Function.comp_apply]
        split <;> rfl
      rw [List.map_map, hkeys]
      exact h.keys
    · intro stored hstored
      obtain ⟨other, hother, rfl⟩ := List.mem_map.mp hstored
      split
      · exact ⟨hread.start, hread.finish, hread.attendees⟩
      · exact h.readable other hother
    · intro stored hstored hne
      obtain ⟨other, hother, rfl⟩ := List.mem_map.mp hstored
      split at hne
      · next hkey =>
        exact absurd (congrArg Prod.fst (eq_of_beq hkey)) hne
      · next hkey =>
        rw [if_neg hkey]
        exact hother
  next hkey =>
  split at hupsert
  · cases hupsert
  · obtain rfl := Except.ok.inj hupsert
    refine ⟨⟨?_, ?_, ?_⟩, ?_⟩
    · rw [List.map_append, List.map_singleton, List.nodup_append_comm]
      refine List.nodup_cons.mpr ⟨?_, h.ids⟩
      simpa using hid
    · rw [List.map_append, List.map_singleton, List.nodup_append_comm]
      refine List.nodup_cons.mpr ⟨?_, h.keys⟩
      simpa using hkey
    · intro stored hstored
      rcases List.mem_append.mp hstored with hold | hnew
      · exact h.readable stored hold
      · obtain rfl := List.mem_singleton.mp hnew
        exact hread
    · intro stored hstored hne
      rcases List.mem_append.mp hstored with hold | hnew
      · exact hold
      · obtain rfl := List.mem_singleton.mp hnew
        exact absurd rfl hne

theorem readable_occurrenceRow (hlawful : codec.Lawful times) {id fetchedAt : String}
    {occ : OccurrenceForUpsert ℤ} (hstart : times occ.startAt) (hend : times occ.endAt) :
    Readable codec times
      (occurrenceRow codec.toCalendarFormats sourceId id fetchedAt occ) := by
  refine ⟨⟨_, hstart, rfl⟩, ⟨_, hend, rfl⟩, ?_⟩
  simp only [occurrenceRow]
  cases hjson : codec.attendeesToString occ.master.attendees with
  | ok json => exact hlawful.attendees _ _ hjson
  | error _ => exact hlawful.noAttendees

/-- So do the upserts of a refresh. -/
theorem CalendarDatabase.Sound.upsertOccurrences (hlawful : codec.Lawful times) {fetchedAt : String}
    (htimes : ∀ occ ∈ occurrences, times occ.startAt ∧ times occ.endAt)
    (h : db.Sound codec times)
    (hupserts : CalendarRepository.upsertOccurrences codec.toCalendarFormats env sourceId fetchedAt
      k db occurrences = .ok db') :
    db'.Sound codec times ∧
      ∀ stored ∈ db'.events, stored.sourceId ≠ sourceId → stored ∈ db.events := by
  induction occurrences generalizing k db with
  | nil =>
    obtain rfl := Except.ok.inj hupserts
    exact ⟨h, fun _ hstored _ => hstored⟩
  | cons occ occurrences ih =>
    obtain ⟨hocc, htimes⟩ := List.forall_mem_cons.mp htimes
    rw [CalendarRepository.upsertOccurrences] at hupserts
    split at hupserts
    · split at hupserts
      · next hupsert =>
        obtain ⟨hsound, hkept⟩ :=
          h.upsertEvent (readable_occurrenceRow hlawful hocc.1 hocc.2) hupsert
        obtain ⟨hsound', hkept'⟩ := ih htimes hsound hupserts
        refine ⟨hsound', ?_⟩
        intro stored hstored hne
        exact hkept stored (hkept' stored hstored hne) hne
      · cases hupserts
    · cases hupserts

/-- What a refresh leaves: sound tables, the rows of other sources, and new ids for its own. -/
theorem of_refresh (hlawful : codec.Lawful times)
    (htimes : ∀ occ ∈ occurrences, times occ.startAt ∧ times occ.endAt)
    (h : db.Sound codec times) {inserted : ℕ}
    (hrefresh : replaceStatements codec.toCalendarFormats env db sourceId occurrences =
      .ok (inserted, db')) :
    db'.Sound codec times ∧
      (∀ stored ∈ db'.events, stored.sourceId ≠ sourceId → stored ∈ db.events) ∧
      ∀ stored ∈ db'.events, stored.sourceId = sourceId → ∃ j, stored.id = env.uuid j := by
  obtain ⟨-, hnew⟩ := of_replaceStatements hrefresh
  have hids : ∀ stored ∈ db'.events, stored.sourceId = sourceId → ∃ j, stored.id = env.uuid j := by
    intro stored hstored hsource
    obtain ⟨j, -, -, hj⟩ := hnew stored hstored hsource
    exact ⟨j, hj⟩
  rw [replaceStatements] at hrefresh
  split at hrefresh
  · simp only at hrefresh
    split at hrefresh
    · next hupserts =>
      split at hrefresh
      · obtain ⟨-, rfl⟩ := Prod.mk.inj (Except.ok.inj hrefresh)
        have hdeleted : CalendarDatabase.Sound codec times
            { db with events := db.events.filter fun row => row.sourceId != sourceId } :=
          ⟨h.ids.sublist (List.filter_sublist.map _), h.keys.sublist (List.filter_sublist.map _),
            fun row hrow => h.readable row (List.mem_filter.mp hrow).1⟩
        obtain ⟨hsound, hkept⟩ := hdeleted.upsertOccurrences hlawful htimes hupserts
        refine ⟨hsound, ?_, hids⟩
        intro stored hstored hne
        exact (List.mem_filter.mp (hkept stored hstored hne)).1
      · cases hrefresh
    · cases hrefresh
  · cases hrefresh

end Refresh

/-! ## Runs -/

/-- What the steps keep: an event that was notified was due, and one that was due and was not stored
again since was notified. -/
structure ReminderAccount.Kept (codec : CalendarCodec) (times : ℤ → Prop) (a : ReminderAccount) :
    Prop where
  /-- the loop goes on -/
  alive : a.alive = true
  /-- the tables are sound -/
  sound : a.db.Sound codec times
  /-- an event that was notified was due -/
  wasDue : ∀ row ∈ a.db.events, row.id ∈ a.alreadyNotified → a.wasDue (occurrenceOf row)
  /-- an event that was due was notified -/
  notified : ∀ row ∈ a.db.events, a.wasDue (occurrenceOf row) → ¬ a.refreshed (occurrenceOf row) →
    row.id ∈ a.alreadyNotified
  /-- each occurrence has one reminder -/
  each : a.OneEach

theorem kept_start (h : db.Sound codec times) : (start db).Kept codec times :=
  ⟨rfl, h, fun _ _ hmem => absurd hmem List.not_mem_nil, fun _ _ hdue => hdue.elim,
    fun _ hdue => hdue.elim, fun _ _ => rfl⟩

theorem ReminderAccount.Kept.tick (hlawful : codec.Lawful times) (h : a.Kept codec times)
    (hshow : settings.showMeetingReminders = true) (hminutes : settings.meetingReminderMinutes ≠ [])
    {order : Arrangement CalendarEventRow} (hnow : times now)
    (hundisturbed : (ReminderStep.tick now order).Undisturbed codec settings times a) :
    (a.step codec settings (.tick now order)).Kept codec times := by
  obtain ⟨⟨hhorizon, htil⟩, hrows⟩ := hundisturbed
  obtain ⟨sent, htick, hshows⟩ : ∃ sent,
      reminderTick codec true order settings now a.db a.alreadyNotified = some sent ∧
        Shows codec settings.meetingReminderMinutes now a.db a.alreadyNotified sent :=
    shows_reminderTick hlawful h.sound hshow hminutes hnow hhorizon htil
      fun row hrow hdue => (hrows row hrow hdue).1
  have hsent : a.sent codec settings now order = some sent := by
    rw [ReminderAccount.sent, if_pos h.alive, htick]
  -- an event that is due now is notified already exactly if it was due before
  have hbefore : ∀ row ∈ a.db.events, IsDue codec settings.meetingReminderMinutes now row →
      (row.id ∈ a.alreadyNotified ↔ a.wasDue (occurrenceOf row)) := fun row hrow hdue =>
    ⟨h.wasDue row hrow, fun hwas => h.notified row hrow hwas (hrows row hrow hdue).2⟩
  simp only [ReminderAccount.step, hsent, Option.getD_some, Option.isSome_some, Bool.and_true]
  refine ⟨h.alive, h.sound, ?_, ?_, ?_, ?_⟩
  · intro row hrow hmem
    rcases List.mem_append.mp hmem with hold | hnew
    · exact .inl (h.wasDue row hrow hold)
    · exact .inr ⟨row, hrow, rfl, ((hshows.ids row hrow).mp hnew).1⟩
  · intro row hrow hdue hfresh
    rcases hdue with hwas | ⟨row', hrow', ho, hdue⟩
    · exact List.mem_append_left _ (h.notified row hrow hwas hfresh)
    · obtain rfl := h.sound.eq_of_occurrence hrow' hrow ho
      by_cases hmem : row'.id ∈ a.alreadyNotified
      · exact List.mem_append_left _ hmem
      · exact List.mem_append_right _ ((hshows.ids row' hrow).mpr ⟨hdue, hmem⟩)
  · intro o hdue
    by_cases hwas : a.wasDue o
    · simp only
      rw [h.each.due o hwas, hshows.none]
      rintro row hrow rfl hnow
      exact (hbefore row hrow hnow).mpr hwas
    · obtain ⟨row, hrow, rfl, hnow⟩ := hdue.resolve_left hwas
      simp only
      rw [h.each.others _ hwas, hshows.one row hrow hnow]
      exact fun hmem => hwas ((hbefore row hrow hnow).mp hmem)
  · intro o hdue
    rw [not_or] at hdue
    simp only
    rw [h.each.others o hdue.1, hshows.none]
    rintro row hrow ho hnow
    exact absurd ⟨row, hrow, ho, hnow⟩ hdue.2

theorem ReminderAccount.Kept.refresh (hlawful : codec.Lawful times) (h : a.Kept codec times)
    {env : SqlEnv} {sourceId : String} {occurrences : List (OccurrenceForUpsert ℤ)}
    (hdocumented : (ReminderStep.refresh env sourceId occurrences).Documented times a) :
    (a.step codec settings (.refresh env sourceId occurrences)).Kept codec times := by
  obtain ⟨-, hnew, htimes⟩ := hdocumented
  simp only [ReminderAccount.step, replaceEvents]
  cases hrefresh : replaceStatements codec.toCalendarFormats env a.db sourceId occurrences with
  | error message => exact h
  | ok result =>
    obtain ⟨inserted, db⟩ := result
    obtain ⟨hsound, hkept, hids⟩ := of_refresh hlawful htimes h.sound hrefresh
    refine ⟨h.alive, hsound, ?_, ?_, h.each.due, h.each.others⟩
    · intro row hrow hmem
      by_cases hsource : row.sourceId = sourceId
      · obtain ⟨j, hj⟩ := hids row hrow hsource
        exact absurd (hj ▸ hmem) (hnew j)
      · exact h.wasDue row (hkept row hrow hsource) hmem
    · intro row hrow hwas hfresh
      rw [not_or] at hfresh
      have hsource : row.sourceId ≠ sourceId := fun hsource => hfresh.2 ⟨hwas, hsource⟩
      exact h.notified row (hkept row hrow hsource) hwas hfresh.1

/-- **One reminder for each meeting.** In every run of ticks and refreshes of a process in which no
tick finds an event due that was stored again since it was due before, each occurrence that was due
at a tick has one reminder, from the first of these ticks on, and no other has any. -/
theorem oneEach_of_undisturbed {steps : List ReminderStep} (hlawful : codec.Lawful times)
    (hshow : settings.showMeetingReminders = true) (hminutes : settings.meetingReminderMinutes ≠ [])
    (hsound : db.Sound codec times)
    (hsteps : UndisturbedSteps codec settings times (start db) steps) :
    (steps.foldl (ReminderAccount.step codec settings) (start db)).OneEach := by
  have hrun : ∀ (steps : List ReminderStep) (a : ReminderAccount), a.Kept codec times →
      UndisturbedSteps codec settings times a steps →
        (steps.foldl (ReminderAccount.step codec settings) a).Kept codec times := by
    intro steps
    induction steps with
    | nil => exact fun a h _ => h
    | cons s steps ih =>
      rintro a h ⟨hdocumented, hundisturbed, hsteps⟩
      refine ih _ ?_ hsteps
      cases s with
      | tick now order => exact h.tick hlawful hshow hminutes hdocumented hundisturbed
      | refresh env sourceId occurrences => exact h.refresh hlawful hdocumented
  exact (hrun steps _ (kept_start hsound) hsteps).each

/-! ### A refresh before a meeting -/

/-- A minute of the fifth of May. -/
def minuteOfDay (hour minute : ℕ) : ℤ := (1777939200 + hour * 3600 + minute * 60) * 1000000000

/-- The minutes of the example, and how they are written. -/
def writtenMinutes : List (ℤ × String) :=
  [(minuteOfDay 9 50, "2026-05-05T09:50:00+00:00"), (minuteOfDay 9 51, "2026-05-05T09:51:00+00:00"),
    (minuteOfDay 10 0, "2026-05-05T10:00:00+00:00"), (minuteOfDay 10 6, "2026-05-05T10:06:00+00:00"),
    (minuteOfDay 10 7, "2026-05-05T10:07:00+00:00"), (minuteOfDay 10 30, "2026-05-05T10:30:00+00:00")]

/-- How these minutes are written and read; there are no attendees. -/
def minuteCodec : CalendarCodec where
  toRfc3339 t := (writtenMinutes.lookup t).getD ""
  attendeesToString _ := .ok "[]"
  parseFromRfc3339 s := (writtenMinutes.find? fun written => written.2 = s).map (·.1)
  attendeesFromStr _ := some []

/-- A weekly meeting at ten. -/
def atTen : OccurrenceForUpsert ℤ := ⟨weekly, minuteOfDay 10 0, minuteOfDay 10 30, none⟩

/-- It is stored. -/
def weeklyMeeting : CalendarDatabase where
  sources := ["work"]
  events := [occurrenceRow minuteCodec.toCalendarFormats "work" "event"
    "2026-05-05T09:00:00+00:00" atTen]
  meetings := fun _ => none

/-- A reminder fifteen minutes before. -/
def quarterHour : ReminderSettings := ⟨true, [15]⟩

/-- The loop ticks ten minutes before the meeting, the calendar is refreshed, and it ticks again. -/
def refreshedMeanwhile : List ReminderStep :=
  [.tick (minuteOfDay 9 50) (.stored _), .refresh calmRefresh "work" [atTen],
    .tick (minuteOfDay 9 51) (.stored _)]

/-- The minutes of the example. -/
def isWritten (t : ℤ) : Prop := t ∈ writtenMinutes.map Prod.fst

theorem lawful_minuteCodec : minuteCodec.Lawful isWritten where
  parse := by
    have hparse : ∀ t ∈ writtenMinutes.map Prod.fst,
        minuteCodec.parseFromRfc3339 (minuteCodec.toRfc3339 t) = some t := by decide +kernel
    exact hparse
  order := by
    have horder : ∀ s ∈ writtenMinutes.map Prod.fst, ∀ t ∈ writtenMinutes.map Prod.fst,
        (minuteCodec.toRfc3339 s < minuteCodec.toRfc3339 t ↔ s < t) := by decide +kernel
    exact fun s t hs ht => horder s hs t ht
  attendees := fun _ _ _ => rfl
  noAttendees := rfl

theorem sound_weeklyMeeting : weeklyMeeting.Sound minuteCodec isWritten where
  ids := by simp [weeklyMeeting]
  keys := by simp [weeklyMeeting]
  readable := by
    intro row hrow
    obtain rfl := List.mem_singleton.mp hrow
    refine ⟨⟨minuteOfDay 10 0, ?_, rfl⟩, ⟨minuteOfDay 10 30, ?_, rfl⟩, rfl⟩ <;>
      simp [isWritten, writtenMinutes]

/-- The loop ticks, and ticks again. -/
theorem oneEach_tickedTwice :
    ([.tick (minuteOfDay 9 50) (.stored _), .tick (minuteOfDay 9 51) (.stored _)].foldl
      (ReminderAccount.step minuteCodec quarterHour) (start weeklyMeeting)).OneEach := by
  have hmeeting : ∀ {now : ℤ}, now < minuteOfDay 10 30 → ∀ row ∈ weeklyMeeting.events,
      ∃ finish, minuteCodec.parseFromRfc3339 row.endAt = some finish ∧ now < finish := by
    intro now hnow row hrow
    obtain rfl := List.mem_singleton.mp hrow
    exact ⟨minuteOfDay 10 30, by decide +kernel, hnow⟩
  refine oneEach_of_undisturbed lawful_minuteCodec rfl (by decide) sound_weeklyMeeting
    ⟨?_, ⟨⟨by decide +kernel, ?_⟩, ?_⟩, ?_, ⟨⟨by decide +kernel, ?_⟩, ?_⟩, trivial⟩
  · simp [ReminderStep.Documented, isWritten, writtenMinutes]
  · simp only [isWritten]
    decide +kernel
  · exact fun row hrow _ => ⟨hmeeting (by decide) row hrow, id⟩
  · simp [ReminderStep.Documented, isWritten, writtenMinutes]
  · simp only [isWritten]
    decide +kernel
  · exact fun row hrow _ => ⟨hmeeting (by decide) row hrow, id⟩

/-- A refresh between two ticks: there are two reminders of the meeting. -/
theorem not_oneEach_refreshedMeanwhile :
    ¬ (refreshedMeanwhile.foldl (ReminderAccount.step minuteCodec quarterHour)
      (start weeklyMeeting)).OneEach := by
  have htwo : (refreshedMeanwhile.foldl (ReminderAccount.step minuteCodec quarterHour)
      (start weeklyMeeting)).reminders ⟨"work", "weekly@example", none, "2026-05-05T10:00:00+00:00"⟩ =
        2 := by
    decide +kernel
  intro h
  by_cases hdue : (refreshedMeanwhile.foldl (ReminderAccount.step minuteCodec quarterHour)
      (start weeklyMeeting)).wasDue ⟨"work", "weekly@example", none, "2026-05-05T10:00:00+00:00"⟩
  · cases htwo.symm.trans (h.due _ hdue)
  · cases htwo.symm.trans (h.others _ hdue)

end MeetilyLocal
