import MeetilyLocal.Database.MatchContext
import MeetilyLocal.Database.TranscriptOrder
import MeetilyLocal.Library.Like

/-!
# Searching transcripts

The embedding of `search_transcripts` (`database/repositories/transcript.rs`), with what SQLite documents of
`LIKE` and `LOWER`: both only know the case of ASCII, and a pattern has at most fifty thousand bytes
(`sqlLike`, `likePatternLength`).

The query stands in the pattern as it is, in the lowercase of all of Unicode. A `%` or `_` in it is therefore
a wildcard (`not_finds_percent`), and a letter that is not of ASCII only finds itself and not its capital.
`Findable` are the queries that find, in any tables, the transcripts that contain them (`finds_iff`); of
those in ASCII, these are the ones without a wildcard and without a letter that becomes one of ASCII
(`folds_of_ascii`).
-/

namespace MeetilyLocal

open MeetingsRepository

namespace TranscriptsRepository

open Utf8

/-! ## The code -/

/-- The tables that are searched. -/
structure SearchTables : Type where
  /-- the `meetings` table -/
  meetings : List MeetingModel
  /-- the `transcripts` table -/
  transcripts : List TranscriptRow
  /-- the primary key of meetings -/
  nodup : (meetings.map (·.id)).Nodup
  /-- the foreign key of transcripts -/
  hasMeeting : ∀ row ∈ transcripts, row.meetingId ∈ meetings.map (·.id)

/-- A match, with what is around it. -/
structure TranscriptSearchResult : Type where
  /-- the meeting -/
  id : String
  /-- its title -/
  title : String
  /-- what is around the match -/
  matchContext : String
  /-- when it was said -/
  timestamp : String

/-- `LIKE`: a percent sign matches anything, an underscore any character, and another character itself, up
to the case of ASCII. -/
def sqlLike : Wildcards Char := ⟨'%', '_', Char.toLower⟩

/-- `LOWER` -/
def sqlLower (text : List Char) : List Char := text.map Char.toLower

/-- `SQLITE_MAX_LIKE_PATTERN_LENGTH` -/
def likePatternLength : ℕ := 50000

/-- `FROM meetings m JOIN transcripts t ON m.id = t.meeting_id` -/
def joined (db : SearchTables) : List (MeetingModel × TranscriptRow) :=
  db.meetings.flatMap fun meeting =>
    (db.transcripts.filter (·.meetingId = meeting.id)).map (meeting, ·)

/-- `WHERE LOWER(t.transcript) LIKE ?` -/
def isLike (pattern : List Char) (row : TranscriptRow) : Bool :=
  sqlLike.like pattern (sqlLower row.transcript.toList)

/-- The rows of the statement. -/
def searchRows (env : SqlEnv) (order : Arrangement (MeetingModel × TranscriptRow))
    (db : SearchTables) (pattern : List Char) : Except String (List (MeetingModel × TranscriptRow)) :=
  if !env.ok 0 then .error sqlError
  else if likePatternLength < len pattern ∧ joined db ≠ [] then
    .error "LIKE or GLOB pattern too complex"
  else .ok (order.arrange ((joined db).filter fun row => isLike pattern row.2))

variable (tables : CaseTables)

/-- What is returned of a row; none where it panics. -/
def searchResult (query : List Char) (row : MeetingModel × TranscriptRow) :
    Option TranscriptSearchResult :=
  (getMatchContext tables row.2.transcript.toList query).map fun matchContext =>
    ⟨row.1.id, row.1.title, String.ofList matchContext, row.2.timestamp⟩

/-- `search_query` -/
def searchQuery (query : List Char) : List Char := '%' :: tables.lowercase query ++ ['%']

/-- Searches for a query string within the transcripts. It returns a list of matching transcripts with
context. None where it panics. -/
def searchTranscripts (env : SqlEnv) (order : Arrangement (MeetingModel × TranscriptRow))
    (db : SearchTables) (query : List Char) : Option (Except String (List TranscriptSearchResult)) :=
  if trim query = [] then some (.ok [])
  else
    match searchRows env order db (searchQuery tables query) with
    | .error message => some (.error message)
    | .ok rows => (rows.mapM (searchResult tables query)).map .ok

/-! ## What it should return -/

/-- The query is in the text, in lowercase. -/
def Contains (query text : List Char) : Prop := tables.lowercase query <:+: tables.lowercase text

instance (query text : List Char) : Decidable (Contains tables query text) :=
  inferInstanceAs (Decidable (tables.lowercase query <:+: tables.lowercase text))

/-- The result for a row. -/
structure IsResult (db : SearchTables) (query : List Char) (row : TranscriptRow)
    (result : TranscriptSearchResult) : Prop where
  meeting : ∃ meeting ∈ db.meetings, meeting.id = row.meetingId ∧ result.id = meeting.id ∧
    result.title = meeting.title
  matchContext : getMatchContext tables row.transcript.toList query = some result.matchContext.toList
  timestamp : result.timestamp = row.timestamp

/-- The results are those for the rows that contain the query, each of them once. -/
def Finds (env : SqlEnv) (order : Arrangement (MeetingModel × TranscriptRow)) (db : SearchTables)
    (query : List Char) : Prop :=
  ∃ rows results, searchTranscripts tables env order db query = some (.ok results) ∧
    rows.Perm (db.transcripts.filter fun row => Contains tables query row.transcript.toList) ∧
    List.Forall₂ (IsResult tables db query) rows results

/-- The context is cut between characters. -/
def CanCut (query text : List Char) : Prop := ∃ context, getMatchContext tables text query = some context

/-- A query that finds the transcripts that contain it. -/
structure Findable (query : List Char) : Prop where
  /-- it is not blank -/
  not_blank : trim query ≠ []
  /-- it has no percent sign and no underscore -/
  not_isWild : ∀ c ∈ query, ¬sqlLike.IsWild c
  /-- it is not too long -/
  short : len (searchQuery tables query) ≤ likePatternLength
  /-- a text that contains it also does so up to the case of ASCII -/
  folds : ∀ text, CanCut tables query text → Contains tables query text →
    tables.lowercase query <:+: sqlLower text

variable {tables} {env : SqlEnv} {order : Arrangement (MeetingModel × TranscriptRow)}
  {db : SearchTables} {query text : List Char}

/-! ## The rows -/

/-- What has one of the keys, by key. -/
theorem perm_flatMap_filter {α κ : Type*} [DecidableEq κ] {key : α → κ} {keys : List κ}
    {rows : List α} (hnodup : keys.Nodup) (hmem : ∀ row ∈ rows, key row ∈ keys) :
    (keys.flatMap fun k => rows.filter (key · = k)).Perm rows := by
  induction keys generalizing rows with
  | nil =>
    rw [List.eq_nil_iff_forall_not_mem.mpr fun row hrow => absurd (hmem row hrow) List.not_mem_nil]
    exact .refl _
  | cons k keys ih =>
    obtain ⟨hk, hkeys⟩ := List.nodup_cons.mp hnodup
    have hother_mem : ∀ row ∈ rows.filter fun row => !decide (key row = k), key row ∈ keys := by
      intro row hrow
      obtain ⟨hin, hne⟩ := List.mem_filter.mp hrow
      exact (List.mem_cons.mp (hmem row hin)).resolve_left (by simpa using hne)
    have hrest := ih hkeys hother_mem
    have hother : (keys.flatMap fun k' =>
        (rows.filter fun row => !decide (key row = k)).filter (key · = k')) =
        keys.flatMap fun k' => rows.filter (key · = k') := by
      refine List.flatMap_congr fun k' hk' => ?_
      have hne : k' ≠ k := ne_of_mem_of_not_mem hk' hk
      rw [List.filter_filter]
      exact List.filter_congr fun row _ => by grind
    rw [hother] at hrest
    rw [List.flatMap_cons]
    exact (hrest.append_left _).trans (List.filter_append_perm _ rows)

/-- The join has each row of `transcripts` once. -/
theorem perm_joined (db : SearchTables) : ((joined db).map Prod.snd).Perm db.transcripts := by
  have hjoined : (joined db).map Prod.snd =
      (db.meetings.map (·.id)).flatMap fun id => db.transcripts.filter (·.meetingId = id) := by
    simp [joined, List.map_flatMap, List.flatMap_map, Function.comp_def]
  rw [hjoined]
  exact perm_flatMap_filter db.nodup db.hasMeeting

theorem mem_joined {row : MeetingModel × TranscriptRow} (h : row ∈ joined db) :
    row.1 ∈ db.meetings ∧ row.1.id = row.2.meetingId := by
  obtain ⟨meeting, hmeeting, hrow⟩ := List.mem_flatMap.mp h
  obtain ⟨transcript, htranscript, rfl⟩ := List.mem_map.mp hrow
  exact ⟨hmeeting, (of_decide_eq_true (List.mem_filter.mp htranscript).2).symm⟩

/-- The rows of the join with a property, as rows of `transcripts`. -/
theorem perm_filter_joined (order : Arrangement (MeetingModel × TranscriptRow)) (db : SearchTables)
    (p : TranscriptRow → Bool) :
    ((order.arrange ((joined db).filter fun row => p row.2)).map Prod.snd).Perm
      (db.transcripts.filter p) := by
  refine ((order.perm _).map Prod.snd).trans ?_
  have hfilter : ((joined db).filter fun row => p row.2).map Prod.snd =
      ((joined db).map Prod.snd).filter p := List.filter_map.symm
  rw [hfilter]
  exact (perm_joined db).filter p

theorem forall₂_of_mapM {α β : Type} {f : α → Option β} {xs : List α} {ys : List β}
    (h : xs.mapM f = some ys) : List.Forall₂ (fun x y => f x = some y) xs ys := by
  induction xs generalizing ys with
  | nil =>
    obtain rfl := Option.some.inj h
    exact .nil
  | cons x xs ih =>
    rw [List.mapM_cons] at h
    obtain ⟨y, hy, hrest⟩ := Option.bind_eq_some_iff.mp h
    obtain ⟨ys, hys, hcons⟩ := Option.bind_eq_some_iff.mp hrest
    obtain rfl := Option.some.inj hcons
    exact .cons hy (ih hys)

theorem exists_mapM {α β : Type} {f : α → Option β} {xs : List α} (h : ∀ x ∈ xs, ∃ y, f x = some y) :
    ∃ ys, xs.mapM f = some ys := by
  induction xs with
  | nil => exact ⟨[], rfl⟩
  | cons x xs ih =>
    obtain ⟨⟨y, hy⟩, hrest⟩ := List.forall_mem_cons.mp h
    obtain ⟨ys, hys⟩ := ih hrest
    exact ⟨y :: ys, by rw [List.mapM_cons, hy, hys]; rfl⟩

/-- The statement of a query that is not blank, and not too long. -/
theorem searchRows_eq (order : Arrangement (MeetingModel × TranscriptRow)) (db : SearchTables)
    (henv : env.ok 0 = true)
    (hshort : len (searchQuery tables query) ≤ likePatternLength) :
    searchRows env order db (searchQuery tables query) =
      .ok (order.arrange ((joined db).filter fun row => isLike (searchQuery tables query) row.2)) := by
  rw [searchRows, henv, if_neg (by decide), if_neg fun hlong => absurd hlong.1 (not_lt.mpr hshort)]

/-- As many results as rows are like the query. -/
theorem length_of_searchTranscripts {results : List TranscriptSearchResult}
    (h : searchTranscripts tables env order db query = some (.ok results)) (henv : env.ok 0 = true)
    (hblank : trim query ≠ []) (hshort : len (searchQuery tables query) ≤ likePatternLength) :
    results.length = (db.transcripts.filter (isLike (searchQuery tables query))).length := by
  rw [searchTranscripts, if_neg hblank, searchRows_eq order db henv hshort] at h
  obtain ⟨results', hmapM, heq⟩ := Option.map_eq_some_iff.mp h
  obtain rfl := Except.ok.inj heq
  have hlength := (forall₂_of_mapM hmapM).length_eq
  rw [← hlength, ← (perm_filter_joined order db _).length_eq, List.length_map]

theorem Finds.length_eq (h : Finds tables env order db query) (henv : env.ok 0 = true)
    (hblank : trim query ≠ []) (hshort : len (searchQuery tables query) ≤ likePatternLength) :
    (db.transcripts.filter (isLike (searchQuery tables query))).length =
      (db.transcripts.filter fun row => Contains tables query row.transcript.toList).length := by
  obtain ⟨rows, results, hsearch, hperm, hresults⟩ := h
  rw [← length_of_searchTranscripts hsearch henv hblank hshort, ← hresults.length_eq,
    hperm.length_eq]

/-! ## The pattern -/

theorem mem_lowercase_percent_iff : '%' ∈ tables.lowercase text ↔ '%' ∈ text :=
  CaseTables.mem_lowercase_iff (by decide) (by decide) (by decide) fun _ hc =>
    hc.of_forall (p := fun c => c.toLower = '%' ↔ c = '%') (by decide)

theorem mem_lowercase_underscore_iff : '_' ∈ tables.lowercase text ↔ '_' ∈ text :=
  CaseTables.mem_lowercase_iff (by decide) (by decide) (by decide) fun _ hc =>
    hc.of_forall (p := fun c => c.toLower = '_' ↔ c = '_') (by decide)

theorem exists_isWild_iff {text : List Char} :
    (∀ c ∈ text, ¬sqlLike.IsWild c) ↔ '%' ∉ text ∧ '_' ∉ text := by
  refine ⟨fun h => ⟨fun hmem => h _ hmem (.inl rfl), fun hmem => h _ hmem (.inr rfl)⟩, ?_⟩
  rintro ⟨hpercent, hunderscore⟩ c hc (rfl | rfl)
  · exact hpercent hc
  · exact hunderscore hc

theorem not_isWild_lowercase_iff (tables : CaseTables) {text : List Char} :
    (∀ c ∈ tables.lowercase text, ¬sqlLike.IsWild c) ↔ ∀ c ∈ text, ¬sqlLike.IsWild c := by
  rw [exists_isWild_iff, exists_isWild_iff, mem_lowercase_percent_iff, mem_lowercase_underscore_iff]

theorem map_toLower_lowercase (tables : CaseTables) (text : List Char) :
    (tables.lowercase text).map Char.toLower = tables.lowercase text := by
  conv_rhs => rw [← List.map_id' (tables.lowercase text)]
  exact List.map_congr_left fun c hc => (CaseTables.stays_of_mem_lowercase hc).toLower_eq

theorem map_toLower_sqlLower (text : List Char) : (sqlLower text).map Char.toLower = sqlLower text := by
  rw [sqlLower, List.map_map]
  exact List.map_congr_left fun c _ => toLower_toLower c

theorem isLike_eq (query : List Char) (row : TranscriptRow) : isLike (searchQuery tables query) row =
    sqlLike.like (sqlLike.many :: tables.lowercase query ++ [sqlLike.many])
      (sqlLower row.transcript.toList) := rfl

/-- A query without wildcards is looked for up to the case of ASCII. -/
theorem isLike_iff {row : TranscriptRow} (h : ∀ c ∈ query, ¬sqlLike.IsWild c) :
    isLike (searchQuery tables query) row = true ↔
      tables.lowercase query <:+: sqlLower row.transcript.toList := by
  have hfold : ∀ text : List Char, text.map sqlLike.fold = text.map Char.toLower := fun _ => rfl
  rw [isLike_eq, Wildcards.like_contains_iff ((not_isWild_lowercase_iff tables).mpr h), hfold, hfold,
    map_toLower_lowercase, map_toLower_sqlLower]

/-- A text that contains the query up to the case of ASCII also contains it in lowercase. -/
theorem contains_of_sqlLower (h : tables.lowercase query <:+: sqlLower text) :
    Contains tables query text :=
  CaseTables.isInfix_lowercaseFrom (fun _ hd => CaseTables.stays_of_mem_lowercase hd) h []

/-- What the pattern of a query with wildcards matches, but does not contain it. -/
def mistaken (tables : CaseTables) (query : List Char) : List Char :=
  sqlLike.fill 'a' (tables.lowercase query)

theorem sqlLower_mistaken (tables : CaseTables) (query : List Char) :
    sqlLower (mistaken tables query) = mistaken tables query := by
  rw [sqlLower, mistaken, Wildcards.fill, List.map_map]
  refine List.map_congr_left fun c hc => ?_
  rw [Function.comp_apply]
  split
  · rfl
  · exact (CaseTables.stays_of_mem_lowercase hc).toLower_eq

theorem not_contains_mistaken (tables : CaseTables) (h : ¬∀ c ∈ query, ¬sqlLike.IsWild c) :
    ¬Contains tables query (mistaken tables query) := by
  intro hcontains
  have hnone : ∀ c ∈ mistaken tables query, ¬sqlLike.IsWild c :=
    fun c hc => Wildcards.not_isWild_of_mem_fill (by decide) hc
  refine h ((not_isWild_lowercase_iff tables).mp fun c hc => ?_)
  exact (not_isWild_lowercase_iff tables).mpr hnone c (hcontains.subset hc)

/-! ## One transcript -/

/-- A transcript. -/
def oneTranscript (text : List Char) : TranscriptRow where
  id := "t"
  meetingId := "m"
  transcript := String.ofList text
  timestamp := ""
  audioStartTime := none
  audioEndTime := none
  duration := none
  speaker := none
  voiceProfileId := none
  sequenceId := none
  source := none
  confidence := none

@[simp]
theorem toList_oneTranscript (text : List Char) : (oneTranscript text).transcript.toList = text :=
  String.toList_ofList

/-- A meeting with one transcript. -/
def oneRow (text : List Char) : SearchTables where
  meetings := [⟨"m", "", "", ""⟩]
  transcripts := [oneTranscript text]
  nodup := by simp
  hasMeeting := by simp [oneTranscript]

/-- Statements that are executed. -/
def executed : SqlEnv := ⟨fun _ => true, fun _ => "", fun _ => ""⟩

/-- A search in one transcript. -/
def FindsIn (tables : CaseTables) (query text : List Char) : Prop :=
  Finds tables executed (.stored _) (oneRow text) query

theorem joined_oneRow_ne_nil (text : List Char) : joined (oneRow text) ≠ [] := by
  simp [joined, oneRow, oneTranscript]

theorem FindsIn.isLike_iff (h : FindsIn tables query text) (hblank : trim query ≠ [])
    (hshort : len (searchQuery tables query) ≤ likePatternLength) :
    isLike (searchQuery tables query) (oneTranscript text) = true ↔ Contains tables query text := by
  have hlength := h.length_eq rfl hblank hshort
  simp only [oneRow, List.filter_singleton, toList_oneTranscript] at hlength
  by_cases hlike : isLike (searchQuery tables query) (oneTranscript text) = true
  all_goals by_cases hcontains : Contains tables query text
  all_goals simp_all

/-- The context of a query in itself. -/
theorem canCut_self (tables : CaseTables) (query : List Char) : CanCut tables query query := by
  have hfind : matchIndex tables query query = some 0 := find_of_isPrefix List.prefix_rfl
  refine (getMatchContext_isSome_iff hfind).mpr ⟨Nat.zero_le _, isCharBoundary_zero query, ?_⟩
  exact (endIndex_boundary_iff query query 0).mpr (.inl (by omega))

/-! ## The search -/

/-- A query that finds what contains it does so in one transcript, in particular. -/
theorem findable_of_findsIn
    (h : ∀ text, (Contains tables query text → CanCut tables query text) → FindsIn tables query text) :
    Findable tables query := by
  have hblank : trim query ≠ [] := by
    intro hblank
    obtain ⟨rows, results, hsearch, hperm, hresults⟩ := h query fun _ => canCut_self tables query
    rw [searchTranscripts, if_pos hblank] at hsearch
    obtain rfl := Except.ok.inj (Option.some.inj hsearch)
    obtain rfl := List.forall₂_nil_right_iff.mp hresults
    have hself : Contains tables query query := List.infix_rfl
    simp [oneRow, hself] at hperm
  have hshort : len (searchQuery tables query) ≤ likePatternLength := by
    by_contra hlong
    obtain ⟨rows, results, hsearch, -⟩ := h query fun _ => canCut_self tables query
    rw [searchTranscripts, if_neg hblank, searchRows, if_neg (by decide),
      if_pos ⟨not_le.mp hlong, joined_oneRow_ne_nil query⟩] at hsearch
    simp at hsearch
  have hwild : ∀ c ∈ query, ¬sqlLike.IsWild c := by
    by_contra hwild
    have hnot := not_contains_mistaken tables hwild
    have hfinds := h (mistaken tables query) fun h => absurd h hnot
    refine hnot ((hfinds.isLike_iff hblank hshort).mp ?_)
    rw [isLike_eq, toList_oneTranscript, sqlLower_mistaken]
    exact Wildcards.like_contains_fill 'a' _
  refine ⟨hblank, hwild, hshort, fun text hcut hcontains => ?_⟩
  have hlike := ((h text fun _ => hcut).isLike_iff hblank hshort).mpr hcontains
  rwa [isLike_iff hwild, toList_oneTranscript] at hlike

theorem Findable.finds (h : Findable tables query) (henv : env.ok 0 = true)
    (hcut : ∀ row ∈ db.transcripts, Contains tables query row.transcript.toList →
      CanCut tables query row.transcript.toList) : Finds tables env order db query := by
  -- the pattern is like the transcripts that contain the query
  have hsame : ∀ row ∈ db.transcripts, isLike (searchQuery tables query) row =
      decide (Contains tables query row.transcript.toList) := by
    intro row hrow
    rw [Bool.eq_iff_iff, isLike_iff h.not_isWild, decide_eq_true_iff]
    exact ⟨contains_of_sqlLower, fun hin => h.folds _ (hcut row hrow hin) hin⟩
  have hperm := perm_filter_joined order db (isLike (searchQuery tables query))
  have hsearch := searchRows_eq order db henv h.short
  have hjoined : ∀ row ∈ order.arrange
      ((joined db).filter fun row => isLike (searchQuery tables query) row.2),
      row.1 ∈ db.meetings ∧ row.1.id = row.2.meetingId := fun row hrow =>
    mem_joined (List.mem_of_mem_filter ((order.perm _).subset hrow))
  generalize order.arrange _ = rows at hperm hsearch hjoined
  rw [List.filter_congr hsame] at hperm
  obtain ⟨results, hresults⟩ : ∃ results, rows.mapM (searchResult tables query) = some results := by
    refine exists_mapM fun row hrow => ?_
    obtain ⟨hmem, hcontains⟩ := List.mem_filter.mp (hperm.subset (List.mem_map_of_mem hrow))
    obtain ⟨context, hcontext⟩ := hcut row.2 hmem (of_decide_eq_true hcontains)
    exact ⟨_, by rw [searchResult, hcontext]; rfl⟩
  refine ⟨rows.map Prod.snd, results, ?_, hperm, ?_⟩
  · rw [searchTranscripts, if_neg h.not_blank, hsearch]
    simp only [hresults, Option.map_some]
  · rw [List.forall₂_map_left_iff]
    refine ((List.forall₂_and_left _ _).mpr ⟨hjoined, forall₂_of_mapM hresults⟩).imp ?_
    rintro row result ⟨⟨hmeeting, hid⟩, hresult⟩
    obtain ⟨context, hcontext, rfl⟩ := Option.map_eq_some_iff.mp hresult
    exact ⟨⟨row.1, hmeeting, hid, rfl, rfl⟩, by rw [hcontext, String.toList_ofList], rfl⟩

/-- **The search finds**, in any tables, the transcripts that contain the query, exactly if it is one of the
queries that do. -/
theorem finds_iff (tables : CaseTables) (query : List Char) :
    (∀ (env : SqlEnv) (order : Arrangement (MeetingModel × TranscriptRow)) (db : SearchTables),
      env.ok 0 = true →
      (∀ row ∈ db.transcripts, Contains tables query row.transcript.toList →
        CanCut tables query row.transcript.toList) →
      Finds tables env order db query) ↔ Findable tables query := by
  refine ⟨fun hfinds => findable_of_findsIn fun text hcut => ?_,
    fun hquery env order db henv hcut => hquery.finds henv hcut⟩
  refine hfinds executed (.stored _) (oneRow text) rfl fun row hrow hcontains => ?_
  obtain rfl := List.mem_singleton.mp hrow
  rw [toList_oneTranscript] at hcontains ⊢
  exact hcut hcontains

/-- A percent sign finds anything. -/
theorem not_finds_percent :
    ¬Finds .onlyAscii executed (.stored _) (oneRow "1000 people".toList) "100%".toList := by
  intro hfinds
  have hnot : ¬Contains .onlyAscii "100%".toList "1000 people".toList := by decide +kernel
  refine hnot ((FindsIn.isLike_iff hfinds (by decide +kernel) (by decide +kernel)).mp ?_)
  decide +kernel

/-! ## Queries in ASCII -/

/-- A character that becomes one of ASCII is not found. -/
theorem not_folds {front behind : List Char} {c d : Char} (hquery : ∀ c ∈ query, IsAscii c)
    (hlower : tables.lowercase query = front ++ d :: behind) (hc : ¬IsAscii c)
    (hin : tables.lowercase query <+: tables.lowercase (front ++ c :: behind)) :
    ¬∀ text, CanCut tables query text → Contains tables query text →
      tables.lowercase query <:+: sqlLower text := by
  intro hfolds
  have hascii : ∀ c ∈ front ++ d :: behind, IsAscii c := by
    rw [← hlower, CaseTables.lowercase, CaseTables.lowercaseFrom_of_ascii hquery]
    intro c hc
    obtain ⟨d, hd, rfl⟩ := List.mem_map.mp hc
    exact (hquery d hd).toLower
  have hfind : matchIndex tables (front ++ c :: behind) query = some 0 := find_of_isPrefix hin
  have hcut : CanCut tables query (front ++ c :: behind) := by
    refine (getMatchContext_isSome_iff hfind).mpr ⟨Nat.zero_le _, isCharBoundary_zero _, ?_⟩
    refine (endIndex_boundary_iff _ _ _).mpr (.inl ?_)
    have hlen := CaseTables.len_lowercase_of_ascii tables hquery
    have hsize := c.utf8Size_le_four
    simp only [hlower, len_append, len_cons] at hlen ⊢
    omega
  have hsame := (hfolds _ hcut hin.isInfix).eq_of_length (by simp [hlower, sqlLower])
  rw [hlower, sqlLower, List.map_append, List.map_cons] at hsame
  obtain ⟨-, hcons⟩ := List.append_inj hsame (by simp)
  obtain ⟨hd, -⟩ := List.cons.inj hcons
  rw [toLower_of_not_ascii hc] at hd
  exact hc (hd ▸ hascii d (by simp))

/-- **The queries in ASCII** that find the texts which only contain them in lowercase are those without a `k`
and an `i` at the end. -/
theorem folds_of_ascii (hquery : ∀ c ∈ query, IsAscii c) :
    (∀ text, CanCut tables query text → Contains tables query text →
      tables.lowercase query <:+: sqlLower text) ↔
      'k' ∉ tables.lowercase query ∧ (tables.lowercase query).getLast? ≠ some 'i' := by
  refine ⟨fun hfolds => ⟨fun hk => ?_, fun hi => ?_⟩, fun ⟨hk, hi⟩ text _ hcontains => ?_⟩
  · obtain ⟨front, behind, hlower⟩ := List.append_of_mem hk
    have hstays : ∀ d ∈ front ++ 'k' :: behind, tables.Stays d := fun d hd =>
      CaseTables.stays_of_mem_lowercase (hlower ▸ hd)
    refine not_folds (c := '\u212A') hquery hlower (by decide) ?_ hfolds
    rw [CaseTables.lowercase_append_cons (by decide) (fun d hd => hstays d (by simp [hd]))
      (fun d hd => hstays d (by simp [hd])), tables.toLowercase_kelvin, hlower]
    exact List.prefix_rfl
  · obtain ⟨front, hlower⟩ := List.getLast?_eq_some_iff.mp hi
    have hstays : ∀ d ∈ front ++ ['i'], tables.Stays d := fun d hd =>
      CaseTables.stays_of_mem_lowercase (hlower ▸ hd)
    refine not_folds (c := 'İ') hquery hlower (by decide) ?_ hfolds
    rw [CaseTables.lowercase_append_cons (by decide) (fun d hd => hstays d (by simp [hd]))
      (by simp), tables.toLowercase_dotted, hlower]
    exact ⟨['\u0307'], by simp⟩
  · refine CaseTables.isInfix_map_toLower ?_ hk hi hcontains
    intro c hc
    rw [CaseTables.lowercase, CaseTables.lowercaseFrom_of_ascii hquery] at hc
    obtain ⟨d, hd, rfl⟩ := List.mem_map.mp hc
    exact (hquery d hd).toLower

end TranscriptsRepository

end MeetilyLocal
