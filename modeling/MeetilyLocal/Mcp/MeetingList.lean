import MeetilyLocal.Library.OrderBy
import MeetilyLocal.Mcp.MeetingTimes
import MeetilyLocal.Mcp.Snippets

/-!
# The list of meetings

The embedding of `list_meetings` of the MCP server (`db.rs`). It filters by the first ten characters
of `created_at` and by a title that contains the query, which is escaped, and is to list the newest
meetings, the newest one first.

The filters are exact. The order is that of the whole texts, and of one date those with a `T` come
before those with a space, whatever the time. So the list is exact if and only if enough other
meetings come before each meeting of the one shape that is older than one of the other shape and of
the same date (`exactList_iff`).
-/

namespace MeetilyLocal

namespace Mcp

open FixedWidth TranscriptsRepository

/-! ## The code -/

/-- A row of `meetings`. -/
structure MeetingRow : Type where
  id : String
  title : String
  /-- the column `created_at` -/
  createdAt : CreatedAt

/-- The tables that are read. -/
structure MeetingTables : Type where
  /-- the `meetings` table -/
  meetings : List MeetingRow
  /-- `meeting_id` and `result` of the `summary_processes` table -/
  summaries : List (String × Option String)
  /-- `meeting_id` and `status` of the `action_items` table -/
  actionItems : List (String × String)
  /-- the primary key of meetings -/
  nodup : (meetings.map (·.id)).Nodup

/-- One row of `list_meetings`. -/
structure MeetingListItem : Type where
  id : String
  title : String
  createdAt : String
  /-- whether it has a summary that is not empty -/
  hasSummary : Bool
  /-- how many action items are open -/
  openActionItemCount : ℕ

/-- What is returned of a row. -/
def listItem (db : MeetingTables) (m : MeetingRow) : MeetingListItem where
  id := m.id
  title := m.title
  createdAt := String.ofList m.createdAt.text
  hasSummary := db.summaries.any fun s => s.1 = m.id && s.2.any (· ≠ "")
  openActionItemCount := db.actionItems.countP fun a => a.1 = m.id && a.2 = "open"

/-- `substr(m.created_at, 1, 10)` -/
def dateText (m : MeetingRow) : List Char := m.createdAt.text.take 10

/-- The filters by date. -/
def isDated (since upTo : Option (List Char)) (m : MeetingRow) : Bool :=
  since.all (fun date => decide (date ≤ dateText m)) &&
    upTo.all fun date => decide (dateText m ≤ date)

/-- `m.title LIKE ? ESCAPE '\'` -/
def isTitled (titleQuery : Option (List Char)) (m : MeetingRow) : Bool :=
  titleQuery.all fun query => isHit query m.title.toList

/-- `ORDER BY m.created_at DESC` -/
def createdAtDesc (m : MeetingRow) : (List Char)ᵒᵈ := OrderDual.toDual m.createdAt.text

/-- The rows of the statement. A pattern that is too long is an error as soon as a title is compared
with it. -/
def meetingRows (order : Arrangement MeetingRow) (db : MeetingTables) (limit : ℕ)
    (since upTo titleQuery : Option (List Char)) : Except String (List MeetingRow) :=
  let dated := db.meetings.filter (isDated since upTo)
  if titleQuery.any (fun query => likePatternLength < Utf8.len (likePattern query)) ∧ dated ≠ [] then
    .error "LIKE or GLOB pattern too complex"
  else .ok ((orderBy createdAtDesc order (dated.filter (isTitled titleQuery))).take limit)

/-- `created_at`-descending list of meetings with summary/action-item rollups. -/
def listMeetings (order : Arrangement MeetingRow) (db : MeetingTables) (limit : ℕ)
    (since upTo titleQuery : Option (List Char)) : Except String (List MeetingListItem) :=
  (meetingRows order db limit since upTo titleQuery).map (·.map (listItem db))

/-! ## What it should list -/

/-- The date in UTC is not before the one date and not after the other one. -/
def DatedIn (since upTo : Option DateFilter) (m : MeetingRow) : Prop :=
  (∀ f ∈ since, f.fields ≤ m.createdAt.date.fields) ∧ ∀ f ∈ upTo, m.createdAt.date.fields ≤ f.fields

instance (since upTo : Option DateFilter) : DecidablePred (DatedIn since upTo) :=
  fun _ => inferInstanceAs (Decidable (_ ∧ _))

/-- The title contains the query, up to the case of ASCII. -/
def TitledBy (titleQuery : Option (List Char)) (m : MeetingRow) : Prop :=
  ∀ query ∈ titleQuery, query.map Char.toLower <:+: m.title.toList.map Char.toLower

instance (titleQuery : Option (List Char)) : DecidablePred (TitledBy titleQuery) :=
  fun m => inferInstanceAs (Decidable (∀ query ∈ titleQuery,
    query.map Char.toLower <:+: m.title.toList.map Char.toLower))

/-- The meetings that are asked for. -/
def wanted (db : MeetingTables) (since upTo : Option DateFilter)
    (titleQuery : Option (List Char)) : List MeetingRow :=
  db.meetings.filter fun m => DatedIn since upTo m ∧ TitledBy titleQuery m

/-- When the newest comes first. -/
def newestFirst (m : MeetingRow) : (ℤ ×ₗ ℕ)ᵒᵈ := OrderDual.toDual m.createdAt.time.moment

/-- The list is that of the newest meetings that are asked for, the newest one first. -/
def ExactList (order : Arrangement MeetingRow) (db : MeetingTables) (limit : ℕ)
    (since upTo : Option DateFilter) (titleQuery : Option (List Char)) : Prop :=
  ∃ rows, IsTop newestFirst limit (wanted db since upTo titleQuery) rows ∧
    listMeetings order db limit (since.map DateFilter.text) (upTo.map DateFilter.text) titleQuery =
      .ok (rows.map (listItem db))

/-- A query that is not too long, and meetings of the two shapes that the cut keeps apart. -/
structure Listable (db : MeetingTables) (limit : ℕ) (since upTo : Option DateFilter)
    (titleQuery : Option (List Char)) : Prop where
  /-- the pattern is not too long, or is compared with no title -/
  short : (∀ query ∈ titleQuery, Utf8.len (likePattern query) ≤ likePatternLength) ∨
    ∀ m ∈ db.meetings, ¬DatedIn since upTo m
  /-- where a meeting with a `T` is older than one of its date with a space, so many meetings come
  before it that it is not listed -/
  apart : ∀ a ∈ wanted db since upTo titleQuery, ∀ b ∈ wanted db since upTo titleQuery,
    a.createdAt.date = b.createdAt.date → a.createdAt.shape = .rfc3339 →
    b.createdAt.shape = .sqlx → a.createdAt.time.moment < b.createdAt.time.moment →
    limit ≤ (wanted db since upTo titleQuery).countP fun c =>
      decide (a.createdAt.text < c.createdAt.text)

variable {order : Arrangement MeetingRow} {db : MeetingTables} {limit : ℕ}
  {since upTo : Option DateFilter} {titleQuery : Option (List Char)} {m : MeetingRow}

/-! ## The filters -/

/-- A date compares with the first ten characters as with the date. -/
theorem text_le_dateText_iff {f : DateFilter} :
    f.text ≤ dateText m ↔ f.fields ≤ m.createdAt.date.fields := by
  rw [dateText, CreatedAt.take_text, ← not_lt, ← not_lt, DateFilter.text,
    render_lt_iff m.createdAt.fits_date f.fits, CreatedAt.dateNumbers, DateFilter.numbers,
    numbers_lt_iff, CreatedAt.dateFields_eq]
  simp [DateFilter.fields]

theorem dateText_le_text_iff {f : DateFilter} :
    dateText m ≤ f.text ↔ m.createdAt.date.fields ≤ f.fields := by
  rw [dateText, CreatedAt.take_text, ← not_lt, ← not_lt, DateFilter.text,
    render_lt_iff f.fits m.createdAt.fits_date, CreatedAt.dateNumbers, DateFilter.numbers,
    numbers_lt_iff, CreatedAt.dateFields_eq]
  simp [DateFilter.fields]

theorem isDated_iff : isDated (since.map DateFilter.text) (upTo.map DateFilter.text) m = true ↔
    DatedIn since upTo m := by
  rw [isDated, DatedIn, Bool.and_eq_true]
  refine and_congr ?_ ?_
  · cases since with
    | none => simp
    | some f => simpa using text_le_dateText_iff
  · cases upTo with
    | none => simp
    | some f => simpa using dateText_le_text_iff

theorem isTitled_iff : isTitled titleQuery m = true ↔ TitledBy titleQuery m := by
  cases titleQuery with
  | none => simp [isTitled, TitledBy]
  | some query => simpa [isTitled, TitledBy] using isHit_iff

/-- The rows that pass the filters are those that are asked for. -/
theorem filter_isTitled :
    (db.meetings.filter (isDated (since.map DateFilter.text) (upTo.map DateFilter.text))).filter
      (isTitled titleQuery) = wanted db since upTo titleQuery := by
  rw [List.filter_filter, wanted]
  refine List.filter_congr fun m _ => ?_
  rw [Bool.eq_iff_iff, Bool.and_eq_true, decide_eq_true_iff, isDated_iff, isTitled_iff, and_comm]

/-! ## The order -/

theorem nodup_wanted : (wanted db since upTo titleQuery).Nodup :=
  (List.Nodup.of_map _ db.nodup).filter _

theorem eq_of_map_eq {α β : Type} {f : α → β} {xs ys : List α}
    (hinj : ∀ x ∈ xs, ∀ y ∈ ys, f x = f y → x = y) (h : xs.map f = ys.map f) : xs = ys := by
  induction xs generalizing ys with
  | nil => exact (List.map_eq_nil_iff.mp h.symm).symm
  | cons x xs ih =>
    obtain _ | ⟨y, ys⟩ := ys
    · cases h
    obtain ⟨hhead, htail⟩ := List.cons.inj h
    rw [hinj x List.mem_cons_self y List.mem_cons_self hhead]
    refine congrArg _ (ih (fun x' hx y' hy => ?_) htail)
    exact hinj x' (List.mem_cons_of_mem _ hx) y' (List.mem_cons_of_mem _ hy)

/-- Meetings are told apart by what is listed of them. -/
theorem eq_of_listItem {m m' : MeetingRow} (hm : m ∈ wanted db since upTo titleQuery)
    (hm' : m' ∈ wanted db since upTo titleQuery) (h : listItem db m = listItem db m') : m = m' :=
  List.inj_on_of_nodup_map db.nodup (List.mem_of_mem_filter hm) (List.mem_of_mem_filter hm')
    (congrArg MeetingListItem.id h)

theorem mem_of_isTop {α μ : Type} [LinearOrder μ] {goal : α → μ} {k : ℕ} {rows result : List α}
    {a : α} (h : IsTop goal k rows result) (ha : a ∈ result) : a ∈ rows := by
  obtain ⟨all, hperm, -, rfl⟩ := h
  exact hperm.mem_iff.mp (List.mem_of_mem_take ha)

/-- A list is exact if its query is not too long, and its rows are the newest ones. -/
theorem exactList_iff_isTop : ExactList order db limit since upTo titleQuery ↔
    ((∀ query ∈ titleQuery, Utf8.len (likePattern query) ≤ likePatternLength) ∨
      ∀ m ∈ db.meetings, ¬DatedIn since upTo m) ∧
    IsTop newestFirst limit (wanted db since upTo titleQuery)
      ((orderBy createdAtDesc order (wanted db since upTo titleQuery)).take limit) := by
  have hlong : ((titleQuery.any fun query =>
      decide (likePatternLength < Utf8.len (likePattern query))) = true ∧
        db.meetings.filter (isDated (since.map DateFilter.text) (upTo.map DateFilter.text)) ≠ []) ↔
      ¬((∀ query ∈ titleQuery, Utf8.len (likePattern query) ≤ likePatternLength) ∨
        ∀ m ∈ db.meetings, ¬DatedIn since upTo m) := by
    rw [not_or]
    refine and_congr ?_ ?_
    · cases titleQuery <;> simp
    · rw [Ne, List.filter_eq_nil_iff]
      simp only [isDated_iff]
  simp only [ExactList, listMeetings, meetingRows, filter_isTitled]
  split
  · next h =>
    refine iff_of_false ?_ fun hboth => absurd hboth.1 (hlong.mp h)
    rintro ⟨rows, -, hrows⟩
    cases hrows
  · next h =>
    have hshort := not_not.mp (mt hlong.mpr h)
    refine ⟨?_, fun hboth => ⟨_, hboth.2, rfl⟩⟩
    rintro ⟨rows, htop, hrows⟩
    refine ⟨hshort, ?_⟩
    have hsame := eq_of_map_eq (fun m hm m' hm' heq => ?_) (Except.ok.inj hrows)
    · rwa [hsame]
    · have hin := (perm_orderBy createdAtDesc order _).mem_iff.mp (List.mem_of_mem_take hm)
      exact eq_of_listItem hin (mem_of_isTop htop hm') heq

/-- What the cut has to keep apart. -/
theorem forall_isTop_iff :
    (∀ order, IsTop newestFirst limit (wanted db since upTo titleQuery)
      ((orderBy createdAtDesc order (wanted db since upTo titleQuery)).take limit)) ↔
    ∀ a ∈ wanted db since upTo titleQuery, ∀ b ∈ wanted db since upTo titleQuery,
      a.createdAt.date = b.createdAt.date → a.createdAt.shape = .rfc3339 →
      b.createdAt.shape = .sqlx → a.createdAt.time.moment < b.createdAt.time.moment →
      limit ≤ (wanted db since upTo titleQuery).countP fun c =>
        decide (a.createdAt.text < c.createdAt.text) := by
  rw [forall_isTop_orderBy_iff createdAtDesc newestFirst limit nodup_wanted]
  refine forall₄_congr fun a _ b _ => ?_
  simp only [createdAtDesc, newestFirst, OrderDual.toDual_le_toDual, OrderDual.toDual_lt_toDual]
  constructor
  · intro h hdate ha hb htime
    obtain ⟨htext, -⟩ := CreatedAt.inverted_iff.mpr ⟨hdate, ha, hb, htime⟩
    exact h htext htime
  · intro h htext htime
    obtain ⟨hdate, ha, hb, -⟩ := CreatedAt.inverted_iff.mp ⟨htext, htime⟩
    exact h hdate ha hb htime

theorem Listable.exactList (h : Listable db limit since upTo titleQuery)
    (order : Arrangement MeetingRow) : ExactList order db limit since upTo titleQuery :=
  exactList_iff_isTop.mpr ⟨h.short, forall_isTop_iff.mpr h.apart order⟩

theorem listable_of_exactList (h : ∀ order, ExactList order db limit since upTo titleQuery) :
    Listable db limit since upTo titleQuery := by
  have htop := fun order => exactList_iff_isTop.mp (h order)
  exact ⟨(htop (.stored MeetingRow)).1, forall_isTop_iff.mp fun order => (htop order).2⟩

/-- **The list of meetings** is exact, in whatever order rows with the same text come, exactly if
the query is not too long and the cut keeps the meetings of the two shapes apart. -/
theorem exactList_iff (db : MeetingTables) (limit : ℕ) (since upTo : Option DateFilter)
    (titleQuery : Option (List Char)) :
    (∀ order, ExactList order db limit since upTo titleQuery) ↔
      Listable db limit since upTo titleQuery :=
  ⟨listable_of_exactList, fun h => h.exactList⟩

/-- Tables of one shape are listed exactly. -/
theorem exactList_of_shape {shape : Shape} (hshape : ∀ m ∈ db.meetings, m.createdAt.shape = shape)
    (hshort : ∀ query ∈ titleQuery, Utf8.len (likePattern query) ≤ likePatternLength)
    (order : Arrangement MeetingRow) : ExactList order db limit since upTo titleQuery := by
  refine Listable.exactList ⟨.inl hshort, fun a ha b hb _ hrfc hsqlx => ?_⟩ order
  rw [hshape a (List.mem_of_mem_filter ha)] at hrfc
  rw [hshape b (List.mem_of_mem_filter hb), hrfc] at hsqlx
  cases hsqlx

/-! ## Two meetings of one day -/

/-- At a full hour of the 15th of July 2026. -/
def atHour (hour : ℕ) (h : hour < 24) (shape : Shape) : CreatedAt where
  time := ⟨⟨2026, 7, 15, by decide, by decide⟩, hour * 3600, 0, by omega, by decide, by omega⟩
  inYears := ⟨by simp, by simp⟩
  shape := shape
  digits := 0
  digits_le := by decide
  enough := rfl

/-- A meeting at nine, stored with a `T`, and one at ten, stored with a space. -/
def twoShapes : MeetingTables where
  meetings := [⟨"meeting-1", "Standup", atHour 9 (by decide) .rfc3339⟩,
    ⟨"meeting-2", "Review", atHour 10 (by decide) .sqlx⟩]
  summaries := []
  actionItems := []
  nodup := by decide

/-- The older one is listed first. -/
theorem not_exactList_twoShapes : ¬∀ order, ExactList order twoShapes 50 none none none := by
  intro h
  have hnine : ⟨"meeting-1", "Standup", atHour 9 (by decide) .rfc3339⟩ ∈
      wanted twoShapes none none none :=
    List.mem_filter.mpr ⟨List.mem_cons_self, by simp [DatedIn, TitledBy]⟩
  have hten : ⟨"meeting-2", "Review", atHour 10 (by decide) .sqlx⟩ ∈
      wanted twoShapes none none none :=
    List.mem_filter.mpr ⟨List.mem_cons_of_mem _ List.mem_cons_self, by simp [DatedIn, TitledBy]⟩
  have hmany := (listable_of_exactList h).apart _ hnine _ hten rfl rfl rfl (by decide)
  have hfew : (wanted twoShapes none none none).length ≤ 2 := List.length_filter_le _ _
  have hcount := hmany.trans List.countP_le_length
  omega

end Mcp

end MeetilyLocal
