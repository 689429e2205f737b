import MeetilyLocal.Database.StoreCalls
import MeetilyLocal.Database.TranscriptOrder
import MeetilyLocal.Library.Binary32
import MeetilyLocal.Summary.ItemParsing
import MeetilyLocal.Summary.LlmClient
import MeetilyLocal.Summary.TranscriptWindows
import MeetilyLocal.Utils.Slugify

/-!
# Action items of a transcript

`extract_from_transcript` of `summary/transcript_action_items.rs` and `extract_for_meeting` of
`summary/action_extraction.rs`. The first gives the transcript to the model in windows, takes each item back
to the segment that its quote is from, and stores what is left. While the model is asked, the application and
the agents go on writing.

What is stored is grounded (`grounded_extractFromTranscript`): an item with a time has that of a segment of
the transcript that covers its quote, and none repeats a sentence of it.
-/

namespace MeetilyLocal

namespace TranscriptActionItems

open ActionExtraction ActionItemsRepository LlmClient MeetingStore Utf8

/-! ## Comparing texts -/

section Words

variable (tables : AlphanumericTables)

/-- `normalize_words` -/
def normalizeWords (text : List Char) : List (List Char) :=
  ((text.splitOnP fun c => !tables.isAlphanumeric c).filter (· ≠ [])).map
    tables.toCaseTables.lowercase

/-- The loop of `normalize_phrase`: whether a space is pending, what there is, and what is left. -/
def normalizePhraseFrom : Bool → List Char → List Char → List Char
  | _, out, [] => out
  | pending, out, c :: cs =>
    if tables.isAlphanumeric c then
      normalizePhraseFrom false
        ((if pending && !out.isEmpty then out ++ [' '] else out) ++ tables.toLowercase c) cs
    else normalizePhraseFrom true out cs

/-- `normalize_phrase` -/
def normalizePhrase (text : List Char) : List Char := normalizePhraseFrom tables false [] text

/-- `is_echoed_quote` -/
def isEchoedQuote (text quote : List Char) : Bool :=
  normalizePhrase tables text ≠ [] && normalizePhrase tables text = normalizePhrase tables quote

/-- `coverage`, in `f32`: the fraction of some words that appear in a segment. -/
def coverage (quoteWords : List (List Char)) (segment : List Char) : ℚ :=
  if quoteWords = [] then 0
  else Binary32.round
    (Binary32.round (quoteWords.countP (· ∈ normalizeWords tables segment)) /
      Binary32.round quoteWords.length)

end Words

/-- `QUOTE_GROUND_MIN` -/
def quoteGroundMin : ℚ := 1 / 2

/-- `QUOTE_HALLUCINATION_MAX`, as an `f32` -/
def quoteHallucinationMax : ℚ := Binary32.round (1 / 5)

/-! ## Grounding -/

/-- `Grounding` -/
inductive Grounding : Type where
  /-- the times of a segment -/
  | anchored : Option Float → Option Float → Grounding
  /-- it is not known when it was said -/
  | kept : Grounding
  /-- it was not said -/
  | hallucinated : Grounding

/-- The loop over the window: the best segment so far, with what it covers. -/
def bestSegment (tables : AlphanumericTables) (words : List (List Char)) :
    Option (ℚ × Segment Float) → List (Segment Float) → Option (ℚ × Segment Float)
  | best, [] => best
  | best, segment :: window =>
    if best.elim 0 Prod.fst < coverage tables words segment.text then
      bestSegment tables words (some (coverage tables words segment.text, segment)) window
    else bestSegment tables words best window

/-- `ground` -/
def ground (tables : AlphanumericTables) (item : NewActionItem) (window : List (Segment Float)) :
    Grounding :=
  match item.sourceQuote with
  | none => .kept
  | some quote =>
    let words := normalizeWords tables quote.toList
    if words = [] then .kept
    else
      match bestSegment tables words none window with
      | some (best, segment) =>
        if quoteGroundMin ≤ best then .anchored segment.start segment.stop
        else if best ≤ quoteHallucinationMax then .hallucinated
        else .kept
      | none => .hallucinated

/-- What becomes of an item of a window. -/
def keepItem (tables : AlphanumericTables) (window : List (Segment Float)) (item : NewActionItem) :
    Option NewActionItem :=
  if item.sourceQuote.any fun quote => isEchoedQuote tables item.text.toList quote.toList then none
  else
    match ground tables item window with
    | .anchored start stop => some { item with sourceStartSecs := start, sourceEndSecs := stop }
    | .kept => some item
    | .hallucinated => none

/-! ## The prompt -/

/-- `fmt_ts` -/
def fmtTs (secs : Option Float) : String :=
  let total := (secs.getD 0.0).toUInt64.toNat
  Mcp.twoDigits (total / 60) ++ ":" ++ Mcp.twoDigits (total % 60)

/-- `render_window` -/
def renderWindow (segments : List (Segment Float)) : String :=
  "\n".intercalate (segments.map fun s =>
    "[" ++ fmtTs s.start ++ "] " ++ String.ofList s.speaker ++ ": " ++ String.ofList s.text)

/-! ## Extraction -/

/-- What the outside decides about an extraction. -/
structure ExtractionEnv : Type where
  /-- the tables of the standard library -/
  tables : AlphanumericTables
  /-- why the transcript cannot be loaded -/
  loadFails : Option String
  /-- the order of segments that the query does not tell apart -/
  rowOrder : Arrangement TranscriptRow
  /-- the settings, and what a read of them meets -/
  settings : SettingsEnv
  /-- the row of the settings -/
  table : SettingsTable
  /-- `app_data_dir` -/
  appDataDir : Option String
  /-- what the call of the model for the window with this number meets -/
  llm : ℕ → LlmEnv
  /-- `SYSTEM_PROMPT`, or `EXTRACTION_SYSTEM_PROMPT` -/
  systemPrompt : String
  /-- what `serde_json` reads -/
  read : List Char → Option Json.Value
  /-- whether overflow is checked -/
  overflowChecks : Bool
  /-- a text as it is shown in an error -/
  debug : List Char → List Char
  /-- what others write while the model is asked -/
  others : List StoreCallAt
  /-- the order of a query without an `ORDER BY` -/
  itemOrder : Arrangement ActionItem
  /-- what the outside decides about the statements of the transaction -/
  sql : SqlEnv

namespace ExtractionEnv

variable (env : ExtractionEnv)

/-- What the store needs to know. -/
def ctx : StoreContext := ⟨env.tables.toCaseTables, env.itemOrder, env.debug⟩

/-- `extract_window`: none where it panics. -/
def extractWindow (config : LlmConfig) (k : ℕ) (window : List (Segment Float)) :
    Option (List NewActionItem) :=
  let userPrompt := "Transcript:\n\n" ++ renderWindow window
  match (generateSummary (env.llm k) config env.systemPrompt userPrompt).1 with
  | .error _ => some []
  | .ok response =>
    match parseActionItems env.overflowChecks env.read env.tables.toCaseTables response.toList with
    | none => none
    | some none => some []
    | some (some items) => some (items.filterMap (keepItem env.tables window))

/-- The windows one after the other; they have the numbers from `k` on. -/
def extractWindows (config : LlmConfig) :
    ℕ → List (List (Segment Float)) → Option (List NewActionItem)
  | _, [] => some []
  | k, window :: windows =>
    match env.extractWindow config k window with
    | none => none
    | some items => (extractWindows config (k + 1) windows).map (items ++ ·)

/-- `dedupe` -/
def dedupe (items : List NewActionItem) : List NewActionItem :=
  collect (fun item : NewActionItem => normalizeTextKey env.tables.toCaseTables item.text) maxItems [] []
    items

/-- `ORDER BY COALESCE(audio_start_time, 0.0), sequence_id` -/
def segmentKey (row : TranscriptRow) : Float64.Rank ×ₗ WithBot ℤ :=
  toLex (Float64.rank (row.audioStartTime.getD 0.0), row.sequenceId.map Int64.toInt)

/-- The segments that are given to the model. -/
def segments (s : MeetingStore) (meetingId : String) : List (Segment Float) :=
  ((orderBy segmentKey env.rowOrder (MeetingsRepository.transcriptsOf s.database meetingId)).filter
    fun row => trim row.transcript.toList ≠ []).map fun row =>
      ⟨trim row.transcript.toList, row.audioStartTime, row.audioEndTime,
        (row.speaker.getD "Speaker").toList⟩

/-- `replace_summary_items`, on the store. -/
def storeItems (s : MeetingStore) (meetingId : String) (items : List NewActionItem) :
    Except String ℕ × MeetingStore :=
  let (result, s') :=
    s.onActionItems (replaceSummaryItems env.tables.toCaseTables env.sql env.itemOrder · meetingId items)
      (keepsActionItems_of_rewrites fun _ => rewrites_replaceSummaryItems fun _ _ => trivial)
  (result.mapError ("failed to store action items: " ++ ·), s')

/-- The items that `extract_from_transcript` is to store: none outside where it panics. -/
def collected (s : MeetingStore) (meetingId provider model : String) :
    Option (Except String (List NewActionItem)) :=
  match env.loadFails with
  | some e => some (.error ("failed to load transcript: " ++ e))
  | none =>
    let segments := env.segments s meetingId
    if segments = [] then some (.error "no transcript segments to extract from")
    else
      match resolve env.settings env.table provider model env.appDataDir with
      | .error e => some (.error e)
      | .ok config =>
        match windowSegments windowChars windowOverlapSegments segments with
        | none => none
        | some windows => (env.extractWindows config 0 windows).map fun items => .ok (env.dedupe items)

/-- What was collected is stored, behind what others have written: none where it panicked. -/
def storeCollected (s : MeetingStore) (meetingId : String) :
    Option (Except String (List NewActionItem)) → Option (Except String ℕ) × MeetingStore
  | none => (none, s)
  | some (.error e) => (some (.error e), s)
  | some (.ok items) =>
    let (result, stored) := env.storeItems s meetingId items
    (some result, stored)

/-- `extract_from_transcript`, with what others write behind the query and before the transaction. -/
def extractFromTranscript (s : MeetingStore) (meetingId provider model : String) :
    Option (Except String ℕ) × MeetingStore :=
  env.storeCollected (run env.ctx env.others s) meetingId (env.collected s meetingId provider model)

/-- The items that `extract_for_meeting` is to store. -/
def collectedOfSummary (summaryMarkdown provider model : String) :
    Option (Except String (List NewActionItem)) :=
  if trim summaryMarkdown.toList = [] then some (.error "summary is empty; nothing to extract")
  else
    match resolve env.settings env.table provider model env.appDataDir with
    | .error e => some (.error e)
    | .ok config =>
      let userPrompt := "Extract the action items from this meeting summary.\n\n---\n" ++
        String.ofList (trim summaryMarkdown.toList) ++ "\n---"
      match (generateSummary (env.llm 0) config env.systemPrompt userPrompt).1 with
      | .error e => some (.error ("LLM call failed: " ++ e))
      | .ok response =>
        match parseActionItems env.overflowChecks env.read env.tables.toCaseTables response.toList with
        | none => none
        | some none => some (.error
            ("could not parse action items from the model response (first 200 chars: " ++
              String.ofList (env.debug (response.toList.take 200)) ++ ")"))
        | some (some items) => some (.ok items)

/-- `extract_for_meeting`, with what others write before the transaction. -/
def extractForMeeting (s : MeetingStore) (meetingId summaryMarkdown provider model : String) :
    Option (Except String ℕ) × MeetingStore :=
  env.storeCollected (run env.ctx env.others s) meetingId
    (env.collectedOfSummary summaryMarkdown provider model)

end ExtractionEnv

/-! ## Grounded items -/

section Grounded

variable {tables : AlphanumericTables} {words : List (List Char)} {best : Option (ℚ × Segment Float)}
  {segment : Segment Float} {segments window : List (Segment Float)} {item kept : NewActionItem}
  {covered : ℚ}

/-- An item goes back to what was said. -/
structure Grounded (tables : AlphanumericTables) (segments : List (Segment Float)) (item : NewActionItem) :
    Prop where
  /-- its text is one -/
  worded : Worded item.text
  /-- it does not repeat the sentence it was found in -/
  own : ∀ quote ∈ item.sourceQuote, isEchoedQuote tables item.text.toList quote.toList = false
  /-- some of that sentence is there -/
  found : ∀ quote ∈ item.sourceQuote, normalizeWords tables quote.toList ≠ [] →
    ∃ segment ∈ segments,
      quoteHallucinationMax < coverage tables (normalizeWords tables quote.toList) segment.text
  /-- if it is known when it was said, the segment of that time covers the sentence -/
  anchored : item.sourceStartSecs ≠ none ∨ item.sourceEndSecs ≠ none →
    ∃ quote ∈ item.sourceQuote, ∃ segment ∈ segments,
      quoteGroundMin ≤ coverage tables (normalizeWords tables quote.toList) segment.text ∧
        item.sourceStartSecs = segment.start ∧ item.sourceEndSecs = segment.stop

/-- The best segment is one of the window, and what it covers is what was found. -/
theorem bestSegment_spec (hbest : bestSegment tables words best window = some (covered, segment)) :
    best = some (covered, segment) ∨
      segment ∈ window ∧ covered = coverage tables words segment.text := by
  induction window generalizing best with
  | nil => exact .inl hbest
  | cons first window ih =>
    rw [bestSegment] at hbest
    split at hbest
    · rcases ih hbest with heq | ⟨hmem, hcovered⟩
      · obtain ⟨rfl, rfl⟩ := Prod.mk.inj (Option.some.inj heq)
        exact .inr ⟨List.mem_cons_self, rfl⟩
      · exact .inr ⟨List.mem_cons_of_mem _ hmem, hcovered⟩
    · rcases ih hbest with heq | ⟨hmem, hcovered⟩
      · exact .inl heq
      · exact .inr ⟨List.mem_cons_of_mem _ hmem, hcovered⟩

theorem quoteHallucinationMax_lt : quoteHallucinationMax < quoteGroundMin := by
  decide +kernel

/-- What is made of an item of which it is known what sentence it is from. -/
theorem ground_cases (tables : AlphanumericTables) (window : List (Segment Float)) {quote : String}
    (hquote : item.sourceQuote = some quote) :
    ground tables item window = .hallucinated ∨
      ground tables item window = .kept ∧ normalizeWords tables quote.toList = [] ∨
      ∃ segment ∈ window, ground tables item window = .kept ∧
          quoteHallucinationMax < coverage tables (normalizeWords tables quote.toList) segment.text ∨
        ground tables item window = .anchored segment.start segment.stop ∧
          quoteGroundMin ≤ coverage tables (normalizeWords tables quote.toList) segment.text := by
  rw [ground]
  simp only [hquote]
  by_cases hwords : normalizeWords tables quote.toList = []
  · exact .inr (.inl ⟨if_pos hwords, hwords⟩)
  rw [if_neg hwords]
  cases hbest : bestSegment tables (normalizeWords tables quote.toList) none window with
  | none => exact .inl rfl
  | some found =>
    obtain ⟨covered, segment⟩ := found
    obtain ⟨hmem, rfl⟩ := (bestSegment_spec hbest).resolve_left (by simp)
    simp only
    split_ifs with hground hmax
    · exact .inr (.inr ⟨segment, hmem, .inr ⟨rfl, hground⟩⟩)
    · exact .inl rfl
    · exact .inr (.inr ⟨segment, hmem, .inl ⟨rfl, not_le.mp hmax⟩⟩)

/-- What is made of an item of a window is grounded in it. -/
theorem grounded_of_keepItem (hitem : WellFormed tables.toCaseTables item)
    (h : keepItem tables window item = some kept) : Grounded tables window kept := by
  rw [keepItem] at h
  split at h
  · cases h
  next hown =>
  have hunanchored : ¬(item.sourceStartSecs ≠ none ∨ item.sourceEndSecs ≠ none) := by
    simp [hitem.unanchored.1, hitem.unanchored.2]
  cases hquote : item.sourceQuote with
  | none =>
    rw [ground, hquote] at h
    obtain rfl := Option.some.inj h
    exact ⟨hitem.worded, by simp [hquote], by simp [hquote], fun hanchor => absurd hanchor hunanchored⟩
  | some quote =>
    have hown' : isEchoedQuote tables item.text.toList quote.toList = false := by
      simpa [hquote] using hown
    obtain hground | ⟨hground, hwords⟩ | ⟨segment, hmem, ⟨hground, hcovered⟩ | ⟨hground, hcovered⟩⟩ :=
      ground_cases tables window hquote
    · rw [hground] at h
      cases h
    · rw [hground] at h
      obtain rfl := Option.some.inj h
      exact ⟨hitem.worded, by simpa [hquote], by simp [hquote, hwords],
        fun hanchor => absurd hanchor hunanchored⟩
    · rw [hground] at h
      obtain rfl := Option.some.inj h
      exact ⟨hitem.worded, by simpa [hquote], by simpa [hquote] using fun _ => ⟨segment, hmem, hcovered⟩,
        fun hanchor => absurd hanchor hunanchored⟩
    · -- the item has the times of the segment
      rw [hground] at h
      obtain rfl := Option.some.inj h
      refine ⟨hitem.worded, by simpa [hquote], ?_, fun _ => ⟨quote, hquote, segment, hmem, hcovered, rfl, rfl⟩⟩
      simpa [hquote] using fun _ => ⟨segment, hmem, quoteHallucinationMax_lt.trans_le hcovered⟩

/-- What is grounded in a part of the segments is grounded in all of them. -/
theorem Grounded.mono (h : Grounded tables window item) (hsub : ∀ s ∈ window, s ∈ segments) :
    Grounded tables segments item where
  worded := h.worded
  own := h.own
  found quote hquote hne := by
    obtain ⟨segment, hmem, hlt⟩ := h.found quote hquote hne
    exact ⟨segment, hsub segment hmem, hlt⟩
  anchored hanchor := by
    obtain ⟨quote, hquote, segment, hmem, hrest⟩ := h.anchored hanchor
    exact ⟨quote, hquote, segment, hsub segment hmem, hrest⟩

end Grounded

/-! ## What is stored -/

section Stored

variable {env : ExtractionEnv} {config : LlmConfig} {k count : ℕ} {s s' : MeetingStore}
  {windows : List (List (Segment Float))} {window : List (Segment Float)}
  {meetingId provider model message : String} {items : List NewActionItem} {item : NewActionItem}

namespace ExtractionEnv

theorem grounded_of_extractWindow (h : env.extractWindow config k window = some items)
    (hitem : item ∈ items) : Grounded env.tables window item := by
  rw [extractWindow] at h
  split at h
  · cases h
    cases hitem
  split at h
  · cases h
  · cases h
    cases hitem
  next hparse =>
    cases h
    rw [parseActionItems_eq] at hparse
    obtain ⟨found, -, hmap⟩ := Option.map_eq_some_iff.mp hparse
    obtain ⟨elements, rfl, rfl⟩ := Option.map_eq_some_iff.mp hmap
    obtain ⟨parsed, hparsed, hkeep⟩ := List.mem_filterMap.mp hitem
    exact grounded_of_keepItem (wellFormed_of_mem hparsed) hkeep

theorem grounded_of_extractWindows (h : env.extractWindows config k windows = some items)
    (hitem : item ∈ items) : ∃ window ∈ windows, Grounded env.tables window item := by
  induction windows generalizing k items with
  | nil =>
    cases h
    cases hitem
  | cons window windows ih =>
    rw [extractWindows] at h
    split at h
    · cases h
    next first hfirst =>
      obtain ⟨rest, hrest, rfl⟩ := Option.map_eq_some_iff.mp h
      rcases List.mem_append.mp hitem with hmem | hmem
      · exact ⟨window, List.mem_cons_self, grounded_of_extractWindow hfirst hmem⟩
      · obtain ⟨window', hwindow', hgrounded⟩ := ih hrest hmem
        exact ⟨window', List.mem_cons_of_mem _ hwindow', hgrounded⟩

/-- A window has segments of the transcript. -/
theorem subset_of_windowSegments {budget overlap : ℕ} {segments : List (Segment Float)}
    (h : windowSegments budget overlap segments = some windows) (hwindow : window ∈ windows) :
    ∀ segment ∈ window, segment ∈ segments := by
  obtain ⟨ranges, hranges, -⟩ := exists_passes budget overlap segments 0
  rw [windowSegments, hranges] at h
  obtain rfl := Option.some.inj h
  obtain ⟨range, -, rfl⟩ := List.mem_map.mp hwindow
  exact fun segment hsegment => List.mem_of_mem_drop (List.mem_of_mem_take hsegment)

theorem dedupe_eq (env : ExtractionEnv) (items : List NewActionItem) :
    env.dedupe items = (firstOfKey (fun item : NewActionItem =>
      normalizeTextKey env.tables.toCaseTables item.text) [] items).take maxItems := by
  rw [dedupe, collect_eq (by decide), List.nil_append]

/-- Items that may be stored: few, distinct, and each of them grounded. -/
structure Storable (env : ExtractionEnv) (segments : List (Segment Float))
    (items : List NewActionItem) : Prop where
  /-- they are not too many -/
  few : items.length ≤ maxItems
  /-- no two of them are the same -/
  distinct : (items.map fun item => normalizeTextKey env.tables.toCaseTables item.text).Nodup
  /-- each goes back to what was said -/
  grounded : ∀ item ∈ items, Grounded env.tables segments item

theorem storable_of_collected (h : env.collected s meetingId provider model = some (.ok items)) :
    Storable env (env.segments s meetingId) items := by
  rw [collected] at h
  split at h
  · cases h
  simp only at h
  split at h
  · cases h
  split at h
  · cases h
  split at h
  · cases h
  next windows hwindows =>
    obtain ⟨found, hfound, heq⟩ := Option.map_eq_some_iff.mp h
    cases heq
    refine ⟨?_, ?_, fun item hitem => ?_⟩
    · rw [dedupe_eq]
      exact List.length_take_le _ _
    · rw [dedupe_eq, List.map_take]
      exact (nodup_firstOfKey _ [] _).sublist (List.take_sublist _ _)
    · rw [dedupe_eq] at hitem
      have hmem := (firstOfKey_sublist _ [] _).mem (List.mem_of_mem_take hitem)
      obtain ⟨window, hwindow, hgrounded⟩ := grounded_of_extractWindows hfound hmem
      exact hgrounded.mono (subset_of_windowSegments hwindows hwindow)

/-- Nothing but the items of the extractor has changed. -/
structure Kept (meetingId : String) (s s' : MeetingStore) : Prop where
  /-- the other items are as they were -/
  others : (s'.actionItems.rows.filter fun row => !isOwned meetingId row) =
    s.actionItems.rows.filter fun row => !isOwned meetingId row
  /-- and so is the rest -/
  rest : s'.meetings = s.meetings ∧ s'.transcripts = s.transcripts ∧
    s'.voiceProfiles = s.voiceProfiles ∧ s'.notes = s.notes ∧ s'.processes = s.processes

/-- What `replace_summary_items` leaves in the store, if it succeeds. -/
structure Replaced (env : ExtractionEnv) (meetingId : String) (items : List NewActionItem)
    (s s' : MeetingStore) : Prop where
  /-- the items of the extractor are these, with what was carried over -/
  rows : ∃ carried : List (Option ActionItem), carried.length = items.length ∧
    s'.actionItems.rows.filter (isOwned meetingId) =
      rowsFrom env.sql meetingId (env.sql.now 0) 3 carried items
  /-- the others are as they were -/
  kept : Kept meetingId s s'

/-- The transaction stores the items, or nothing. -/
theorem storeItems_cases (env : ExtractionEnv) (s : MeetingStore) (meetingId : String)
    (items : List NewActionItem) :
    (∃ message, env.storeItems s meetingId items = (.error message, s)) ∨
      ∃ s', env.storeItems s meetingId items = (.ok items.length, s') ∧ Replaced env meetingId items s s' := by
  rw [storeItems]
  cases hreplace : replaceStatements env.tables.toCaseTables env.sql env.itemOrder s.actionDatabase
    meetingId items with
  | error message =>
    have hsame : replaceSummaryItems env.tables.toCaseTables env.sql env.itemOrder s.actionDatabase
        meetingId items = (.error message, s.actionDatabase) := by rw [replaceSummaryItems, hreplace]
    refine .inl ⟨"failed to store action items: " ++ message, Prod.ext ?_ ?_⟩
    · simp only [onActionItems, hsame, Except.mapError]
    · simp only [onActionItems, hsame]
      rfl
  | ok written =>
    obtain ⟨written, db⟩ := written
    have hsome : replaceSummaryItems env.tables.toCaseTables env.sql env.itemOrder s.actionDatabase
        meetingId items = (.ok written, db) := by rw [replaceSummaryItems, hreplace]
    obtain ⟨rfl, -⟩ := replaceStatements_eq_ok hreplace
    obtain ⟨hothers, carried, hlen, hown, -⟩ := conserved_of_replaceStatements hreplace
    refine .inr ⟨_, Prod.ext ?_ rfl, ⟨carried, hlen, ?_⟩, ?_, rfl, rfl, rfl, rfl, rfl⟩
    · simp only [onActionItems, hsome, Except.mapError]
    · rw [← hown]
      simp only [onActionItems, hsome]
    · refine Eq.trans ?_ hothers
      simp only [onActionItems, hsome]

/-- The rows of the extractor behind an extraction, and what it has left alone. -/
structure StoredItems (tables : CaseTables) (P : NewActionItem → Prop) (meetingId : String) (count : ℕ)
    (s s' : MeetingStore) : Prop where
  /-- there are as many as it says, and not too many -/
  count : (s'.actionItems.rows.filter (isOwned meetingId)).length = count ∧ count ≤ maxItems
  /-- no two of them are the same -/
  distinct : ((s'.actionItems.rows.filter (isOwned meetingId)).map fun row =>
    normalizeTextKey tables row.text).Nodup
  /-- each is that of an item -/
  items : ∀ row ∈ s'.actionItems.rows.filter (isOwned meetingId), ∃ item, P item ∧
    row.text = item.text ∧ row.sourceQuote = item.sourceQuote ∧
      row.sourceStartSecs = TranscriptsRepository.bindFloat item.sourceStartSecs ∧
      row.sourceEndSecs = TranscriptsRepository.bindFloat item.sourceEndSecs
  /-- the others are as they were -/
  kept : Kept meetingId s s'

theorem Replaced.storedItems {P : NewActionItem → Prop} (h : Replaced env meetingId items s s')
    (hfew : items.length ≤ maxItems)
    (hdistinct : (items.map fun item => normalizeTextKey env.tables.toCaseTables item.text).Nodup)
    (hitems : ∀ item ∈ items, P item) :
    StoredItems env.tables.toCaseTables P meetingId items.length s s' := by
  obtain ⟨⟨carried, hlen, hrows⟩, hkept⟩ := h
  have htexts : (rowsFrom env.sql meetingId (env.sql.now 0) 3 carried items).map
      (fun row => normalizeTextKey env.tables.toCaseTables row.text) =
      items.map fun item => normalizeTextKey env.tables.toCaseTables item.text :=
    map_text_rowsFrom (normalizeTextKey env.tables.toCaseTables) hlen
  refine ⟨⟨?_, hfew⟩, ?_, fun row hrow => ?_, hkept⟩
  · have hlength := congrArg List.length htexts
    simp only [List.length_map] at hlength
    rw [hrows, hlength]
  · rw [hrows, htexts]
    exact hdistinct
  · rw [hrows] at hrow
    obtain ⟨id, old, -, item, hitem, rfl⟩ := mem_rowsFrom hrow
    exact ⟨item, hitems item hitem, rfl, rfl, rfl, rfl⟩

/-- What was collected is stored, or nothing changes. -/
theorem stored_of_storeCollected {P : NewActionItem → Prop}
    {collected : Option (Except String (List NewActionItem))}
    (h : ∀ items, collected = some (.ok items) → items.length ≤ maxItems ∧
      (items.map fun item => normalizeTextKey env.tables.toCaseTables item.text).Nodup ∧
      ∀ item ∈ items, P item) :
    match env.storeCollected s meetingId collected with
    | (some (.ok count), s') => StoredItems env.tables.toCaseTables P meetingId count s s'
    | (_, s') => s' = s := by
  rcases collected with _ | e | items
  · rfl
  · rfl
  obtain ⟨hfew, hdistinct, hitems⟩ := h items rfl
  obtain ⟨message, hstore⟩ | ⟨s', hstore, hreplaced⟩ := storeItems_cases env s meetingId items
  · simp only [storeCollected, hstore]
  · simp only [storeCollected, hstore]
    exact hreplaced.storedItems hfew hdistinct hitems

/-- **What is stored of a transcript is grounded in it**, as it was when the extraction started: few items,
no two of them the same, each with the time of a segment that covers its quote, or with none. Whatever is
written in the meantime stays, and an extraction that fails writes nothing. -/
theorem grounded_extractFromTranscript (env : ExtractionEnv) (s : MeetingStore)
    (meetingId provider model : String) :
    match env.extractFromTranscript s meetingId provider model with
    | (some (.ok count), s') =>
      StoredItems env.tables.toCaseTables (Grounded env.tables (env.segments s meetingId)) meetingId count
        (run env.ctx env.others s) s'
    | (_, s') => s' = run env.ctx env.others s :=
  stored_of_storeCollected fun _ hcollected =>
    have hstorable := storable_of_collected hcollected
    ⟨hstorable.few, hstorable.distinct, hstorable.grounded⟩

/-- What is collected of a summary is as it comes of the answer. -/
theorem exists_of_collectedOfSummary {summaryMarkdown : String}
    (h : env.collectedOfSummary summaryMarkdown provider model = some (.ok items)) :
    ∃ elements, items = normalizeElements env.tables.toCaseTables elements := by
  rw [collectedOfSummary] at h
  split at h
  · cases h
  split at h
  · cases h
  simp only at h
  split at h
  · cases h
  split at h
  · cases h
  · cases h
  next hparse =>
    cases h
    rw [parseActionItems_eq] at hparse
    obtain ⟨found, -, hmap⟩ := Option.map_eq_some_iff.mp hparse
    obtain ⟨elements, -, rfl⟩ := Option.map_eq_some_iff.mp hmap
    exact ⟨elements, rfl⟩

/-- And so is what is stored of it. -/
theorem wellFormed_extractForMeeting (env : ExtractionEnv) (s : MeetingStore)
    (meetingId summaryMarkdown provider model : String) :
    match env.extractForMeeting s meetingId summaryMarkdown provider model with
    | (some (.ok count), s') =>
      StoredItems env.tables.toCaseTables (WellFormed env.tables.toCaseTables) meetingId count
        (run env.ctx env.others s) s'
    | (_, s') => s' = run env.ctx env.others s := by
  refine stored_of_storeCollected fun items hcollected => ?_
  obtain ⟨elements, rfl⟩ := exists_of_collectedOfSummary hcollected
  exact ⟨normalizeElements_few _ elements, nodup_normalizeElements _ elements, fun _ => wellFormed_of_mem⟩

end ExtractionEnv

end Stored

end TranscriptActionItems

end MeetilyLocal
