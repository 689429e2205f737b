import MeetilyLocal.Audio.TranscriptViews
import MeetilyLocal.Audio.TranscriptsJsonRoundTrip

/-!
# Which of the two files is newer

A meeting folder is written to by appends to the journal, by rewrites of transcripts.json during and
after a recording, and by the final rewrite of a stop, which removes the journal. Each of them can
fail. A history of such events keeps track of the latest write (`Latest`); the reader of the folder
should return what it holds (`ReturnsLatest`).

The reader takes the journal if it was modified last, and that is right. But it takes it as well if
it has more segments than transcripts.json, however old it is. A final rewrite removes the journal
for this reason, "so a stale ndjson never shadows the just-written json"; the rewrite after a
retranscription leaves it. The reader returns the latest write exactly if no old journal with more
segments, or one that cannot be replayed, lies next to a rewritten transcripts.json
(`returnsLatest_iff`).
-/

namespace MeetilyLocal

open Json

namespace TranscriptsJson

open TranscriptJournal

/-! ## Histories of a folder -/

/-- What writes to a meeting folder, and how it goes. -/
inductive FolderEvent : Type where
  /-- the journal writer appends a segment -/
  | append : TranscriptSegment → WriteOutcome → FolderEvent
  /-- transcripts.json is rewritten: by the debounced rebuild or after a retranscription -/
  | rewrite : List TranscriptSegment → String → WriteOutcome → RenameOutcome → FolderEvent
  /-- `stop_and_save` rewrites it and removes the journal, if that can be removed -/
  | stop : List TranscriptSegment → String → WriteOutcome → RenameOutcome → Bool → FolderEvent

/-- The latest write to a folder. -/
inductive Latest : Type where
  /-- the journal was appended to -/
  | journal : Latest
  /-- transcripts.json was rewritten with these segments -/
  | json : List TranscriptSegment → Latest

/-- A folder and the latest write to it. -/
structure TrackedFolder : Type where
  /-- the folder -/
  folder : MeetingFolder
  /-- the latest write, if there was one -/
  latest : Option Latest

namespace TrackedFolder

/-- Append a segment to the journal; a line that was torn counts as a write. -/
def append (serde : Serde) (state : TrackedFolder) (now : ℕ) (segment : TranscriptSegment)
    (outcome : WriteOutcome) : TrackedFolder :=
  match serde.toString segment with
  | .error _ => state
  | .ok _ =>
    ⟨⟨(appendTranscriptJournalLine serde state.folder.files segment outcome).2,
        state.folder.stamp now transcriptsJournalFilename outcome⟩,
      if outcome.touches then some .journal else state.latest⟩

/-- Rewrite transcripts.json, and remove the journal after that if told to. -/
def rewrite (codec : JsonCodec) (state : TrackedFolder) (now : ℕ)
    (segments : List TranscriptSegment) (lastUpdated : String) (write : WriteOutcome)
    (rename : RenameOutcome) (removed : Bool) : TrackedFolder :=
  match writeTranscriptsJson codec state.folder segments now lastUpdated write rename with
  | (.error _, folder) => ⟨folder, state.latest⟩
  | (.ok (), folder) =>
    ⟨if removed then folder.remove transcriptsJournalFilename else folder, some (.json segments)⟩

/-- One event. -/
def step (serde : Serde) (codec : JsonCodec) (state : TrackedFolder) : ℕ × FolderEvent →
    TrackedFolder
  | (now, .append segment outcome) => state.append serde now segment outcome
  | (now, .rewrite segments lastUpdated write rename) =>
    state.rewrite codec now segments lastUpdated write rename false
  | (now, .stop segments lastUpdated write rename removed) =>
    state.rewrite codec now segments lastUpdated write rename removed

/-- A new folder. -/
def new : TrackedFolder := ⟨.empty, none⟩

/-- A history of a new folder. -/
def run (serde : Serde) (codec : JsonCodec) (history : List (ℕ × FolderEvent)) : TrackedFolder :=
  history.foldl (step serde codec) new

end TrackedFolder

/-- The documents of an event can be printed and read back. -/
def FolderEvent.Kept (codec : JsonCodec) : FolderEvent → Prop
  | .append _ _ => True
  | .rewrite segments lastUpdated _ _ => codec.Keeps (transcriptsValue lastUpdated segments)
  | .stop segments lastUpdated _ _ _ => codec.Keeps (transcriptsValue lastUpdated segments)

/-- What the latest write to a folder holds. -/
def content (serde : Serde) (codec : JsonCodec) (order : IterationOrder) (state : TrackedFolder) :
    Except String (List TranscriptSegment) :=
  match state.latest with
  | none => .ok []
  | some .journal => replayTranscriptJournal serde order state.folder.files
  | some (.json segments) => .ok (segments.zipIdx.map fun s => readBack codec s.2 s.1)

/-- Loading the folder returns what its latest write holds. -/
def ReturnsLatest (serde : Serde) (codec : JsonCodec) (order : IterationOrder)
    (state : TrackedFolder) : Prop :=
  loadTranscriptsFromFolder serde codec order state.folder = content serde codec order state

/-- If transcripts.json was written last, a journal next to it can be replayed and has no more
segments than were written. -/
def Unshadowed (serde : Serde) (order : IterationOrder) (state : TrackedFolder) : Prop :=
  ∀ segments, state.latest = some (.json segments) →
    state.folder.files transcriptsJournalFilename ≠ none →
    ∃ journalSegments,
      replayTranscriptJournal serde order state.folder.files = .ok journalSegments ∧
      journalSegments.length ≤ segments.length

/-! ## What an event can do -/

/-- The transcript files of two folders are the same. -/
structure SameFiles (folder folder' : MeetingFolder) : Prop where
  /-- transcripts.json -/
  json : folder'.files transcriptsJsonFilename = folder.files transcriptsJsonFilename
  /-- its modification time -/
  modified_json :
    folder'.modified transcriptsJsonFilename = folder.modified transcriptsJsonFilename
  /-- the journal -/
  journal : folder'.files transcriptsJournalFilename = folder.files transcriptsJournalFilename
  /-- its modification time -/
  modified_journal :
    folder'.modified transcriptsJournalFilename = folder.modified transcriptsJournalFilename

/-- The journal was appended to. -/
structure Appended (now : ℕ) (folder folder' : MeetingFolder) : Prop where
  /-- transcripts.json is what it was -/
  json : folder'.files transcriptsJsonFilename = folder.files transcriptsJsonFilename
  /-- and was not modified -/
  modified_json :
    folder'.modified transcriptsJsonFilename = folder.modified transcriptsJsonFilename
  /-- the journal exists -/
  journal : folder'.files transcriptsJournalFilename ≠ none
  /-- it was modified now -/
  modified_journal : folder'.modified transcriptsJournalFilename = some now

/-- transcripts.json was rewritten. -/
structure Rewritten (codec : JsonCodec) (now : ℕ) (segments : List TranscriptSegment)
    (folder folder' : MeetingFolder) : Prop where
  /-- it exists -/
  json : folder'.files transcriptsJsonFilename ≠ none
  /-- it reads back -/
  read : readTranscriptsJson codec folder'.files =
    .ok (segments.zipIdx.map fun s => readBack codec s.2 s.1)
  /-- it was modified now -/
  modified_json : folder'.modified transcriptsJsonFilename = some now
  /-- the journal was not modified, if it is still there -/
  modified_journal : folder'.files transcriptsJournalFilename ≠ none →
    folder.files transcriptsJournalFilename ≠ none ∧
    folder'.modified transcriptsJournalFilename = folder.modified transcriptsJournalFilename

theorem SameFiles.refl (folder : MeetingFolder) : SameFiles folder folder := ⟨rfl, rfl, rfl, rfl⟩

theorem readTranscriptsJson_congr {codec : JsonCodec} {files files' : Directory}
    (h : files' transcriptsJsonFilename = files transcriptsJsonFilename) :
    readTranscriptsJson codec files' = readTranscriptsJson codec files := by
  rw [readTranscriptsJson, readTranscriptsJson, Directory.readToString, Directory.readToString, h]

/-- A rewrite that failed leaves both files. -/
theorem sameFiles_of_error {codec : JsonCodec} {folder full : MeetingFolder}
    {segments : List TranscriptSegment} {now : ℕ} {lastUpdated message : String}
    {write : WriteOutcome} {rename : RenameOutcome}
    (h : writeTranscriptsJson codec folder segments now lastUpdated write rename =
      (.error message, full)) : SameFiles folder full := by
  rw [writeTranscriptsJson] at h
  rcases htext : codec.toStringPretty (transcriptsValue lastUpdated segments) with message' | text
  · rw [htext] at h
    obtain ⟨-, rfl⟩ := Prod.mk.inj h
    exact .refl _
  · rw [htext] at h
    -- the temporary file may have been written to
    have htemp : ∀ bytes, SameFiles folder
        ⟨Function.update folder.files transcriptsTempFilename bytes,
          Function.update folder.modified transcriptsTempFilename (some now)⟩ := by
      intro bytes
      constructor <;> simp [Function.update_of_ne json_ne_temp, Function.update_of_ne journal_ne_temp]
    rcases write with _ | ⟨message', _ | n⟩
    · rcases rename with _ | message'
      · cases (Prod.mk.inj h).1
      · obtain ⟨-, rfl⟩ := Prod.mk.inj h
        exact htemp _
    · obtain ⟨-, rfl⟩ := Prod.mk.inj h
      exact .refl _
    · obtain ⟨-, rfl⟩ := Prod.mk.inj h
      exact htemp _

/-- A rewrite that succeeded. -/
theorem rewritten_of_written {codec : JsonCodec} {segments : List TranscriptSegment} {now : ℕ}
    {lastUpdated : String} {folder full : MeetingFolder}
    (hkeeps : codec.Keeps (transcriptsValue lastUpdated segments))
    (h : Written codec segments now lastUpdated folder full) :
    Rewritten codec now segments folder full := by
  obtain ⟨text, -, hjson⟩ := h.files_json
  refine ⟨by simp [hjson], readTranscriptsJson_of_written hkeeps h, h.modified_json, ?_⟩
  rw [h.files_journal]
  exact fun hexists => ⟨hexists, h.modified_journal⟩

/-- Removing the journal leaves transcripts.json. -/
theorem Rewritten.remove_journal {codec : JsonCodec} {segments : List TranscriptSegment} {now : ℕ}
    {folder full : MeetingFolder} (h : Rewritten codec now segments folder full) :
    Rewritten codec now segments folder (full.remove transcriptsJournalFilename) := by
  have hsame : (full.remove transcriptsJournalFilename).files transcriptsJsonFilename =
      full.files transcriptsJsonFilename := by
    simp [MeetingFolder.remove, journal_ne_json.symm]
  have hmodified : (full.remove transcriptsJournalFilename).modified transcriptsJsonFilename =
      full.modified transcriptsJsonFilename := by
    simp [MeetingFolder.remove, journal_ne_json.symm]
  have hgone : (full.remove transcriptsJournalFilename).files transcriptsJournalFilename =
      none := by
    simp [MeetingFolder.remove]
  exact ⟨hsame ▸ h.json, (readTranscriptsJson_congr hsame).trans h.read,
    hmodified.trans h.modified_json, fun hexists => absurd hgone hexists⟩

/-- A rewrite leaves both files or succeeds. -/
theorem rewrite_cases {codec : JsonCodec} {segments : List TranscriptSegment}
    {lastUpdated : String} (hkeeps : codec.Keeps (transcriptsValue lastUpdated segments))
    (state : TrackedFolder) (now : ℕ) (write : WriteOutcome) (rename : RenameOutcome)
    (removed : Bool) {state' : TrackedFolder}
    (h : state.rewrite codec now segments lastUpdated write rename removed = state') :
    (SameFiles state.folder state'.folder ∧ state'.latest = state.latest) ∨
      (Rewritten codec now segments state.folder state'.folder ∧
        state'.latest = some (.json segments)) := by
  subst h
  rw [TrackedFolder.rewrite]
  obtain ⟨⟨result, full⟩, hwrite⟩ : ∃ written,
      writeTranscriptsJson codec state.folder segments now lastUpdated write rename = written :=
    ⟨_, rfl⟩
  rw [hwrite]
  rcases result with message | ⟨⟩
  · exact .inl ⟨sameFiles_of_error hwrite, rfl⟩
  · have hrewritten := rewritten_of_written hkeeps (written_of_ok hwrite)
    cases removed with
    | false => exact .inr ⟨hrewritten, rfl⟩
    | true => exact .inr ⟨hrewritten.remove_journal, rfl⟩

/-- An event leaves both files, appends to the journal or rewrites transcripts.json. -/
theorem step_cases (serde : Serde) {codec : JsonCodec} {event : FolderEvent}
    (hkept : event.Kept codec) (state : TrackedFolder) (now : ℕ) {state' : TrackedFolder}
    (h : state.step serde codec (now, event) = state') :
    (SameFiles state.folder state'.folder ∧ state'.latest = state.latest) ∨
      (Appended now state.folder state'.folder ∧ state'.latest = some .journal) ∨
      ∃ segments, Rewritten codec now segments state.folder state'.folder ∧
        state'.latest = some (.json segments) := by
  cases event with
  | append segment outcome =>
    subst h
    simp only [TrackedFolder.step, TrackedFolder.append, appendTranscriptJournalLine]
    rcases serde.toString segment with message | line
    · exact .inl ⟨.refl _, rfl⟩
    · rcases outcome with _ | ⟨message, _ | n⟩
      · refine .inr (.inl ⟨?_, rfl⟩)
        constructor <;> simp [Directory.append, MeetingFolder.stamp, WriteOutcome.touches,
          Function.update_of_ne journal_ne_json.symm]
      · exact .inl ⟨.refl _, rfl⟩
      · refine .inr (.inl ⟨?_, rfl⟩)
        constructor <;> simp [Directory.append, MeetingFolder.stamp, WriteOutcome.touches,
          Function.update_of_ne journal_ne_json.symm]
  | rewrite segments lastUpdated write rename =>
    exact (rewrite_cases hkept state now write rename false h).imp_right
      fun hrewritten => .inr ⟨segments, hrewritten⟩
  | stop segments lastUpdated write rename removed =>
    exact (rewrite_cases hkept state now write rename removed h).imp_right
      fun hrewritten => .inr ⟨segments, hrewritten⟩

/-! ## The latest write is the newer file -/

/-- The file of the latest write is there, and if the other one is too, it is older. -/
def LatestIsNewer (codec : JsonCodec) (folder : MeetingFolder) : Option Latest → Prop
  | none => folder.files transcriptsJsonFilename = none ∧
      folder.files transcriptsJournalFilename = none
  | some .journal => folder.files transcriptsJournalFilename ≠ none ∧
      (folder.files transcriptsJsonFilename ≠ none → ∃ i j, i < j ∧
        folder.modified transcriptsJsonFilename = some i ∧
        folder.modified transcriptsJournalFilename = some j)
  | some (.json segments) => folder.files transcriptsJsonFilename ≠ none ∧
      readTranscriptsJson codec folder.files =
        .ok (segments.zipIdx.map fun s => readBack codec s.2 s.1) ∧
      (folder.files transcriptsJournalFilename ≠ none → ∃ i j, j < i ∧
        folder.modified transcriptsJsonFilename = some i ∧
        folder.modified transcriptsJournalFilename = some j)

/-- The invariant of a history that has reached the time `t`. -/
structure Tracked (codec : JsonCodec) (t : ℕ) (state : TrackedFolder) : Prop where
  /-- transcripts.json reads back -/
  read : state.folder.files transcriptsJsonFilename ≠ none →
    ∃ segments, readTranscriptsJson codec state.folder.files = .ok segments
  /-- it was modified before `t` -/
  modified_json : state.folder.files transcriptsJsonFilename ≠ none →
    ∃ i < t, state.folder.modified transcriptsJsonFilename = some i
  /-- the journal was modified before `t` -/
  modified_journal : state.folder.files transcriptsJournalFilename ≠ none →
    ∃ j < t, state.folder.modified transcriptsJournalFilename = some j
  /-- the latest write went to the newer file -/
  latest : LatestIsNewer codec state.folder state.latest

theorem tracked_new (codec : JsonCodec) : Tracked codec 0 TrackedFolder.new where
  read h := absurd rfl h
  modified_json h := absurd rfl h
  modified_journal h := absurd rfl h
  latest := ⟨rfl, rfl⟩

/-- The invariant is about the two files only. -/
theorem Tracked.of_sameFiles {codec : JsonCodec} {t t' : ℕ} {state state' : TrackedFolder}
    (h : Tracked codec t state) (ht : t ≤ t') (hsame : SameFiles state.folder state'.folder)
    (hlatest : state'.latest = state.latest) : Tracked codec t' state' := by
  obtain ⟨hread, hjson, hjournal, hnewer⟩ := h
  have hcongr : readTranscriptsJson codec state'.folder.files =
      readTranscriptsJson codec state.folder.files := readTranscriptsJson_congr hsame.json
  refine ⟨?_, ?_, ?_, ?_⟩
  · rwa [hsame.json, hcongr]
  · rw [hsame.json, hsame.modified_json]
    exact fun hexists => (hjson hexists).imp fun i hi => ⟨hi.1.trans_le ht, hi.2⟩
  · rw [hsame.journal, hsame.modified_journal]
    exact fun hexists => (hjournal hexists).imp fun j hj => ⟨hj.1.trans_le ht, hj.2⟩
  · rw [hlatest]
    rcases hwhich : state.latest with _ | _ | segments
    all_goals
      rw [hwhich] at hnewer
      simpa only [LatestIsNewer, hsame.json, hsame.journal, hsame.modified_json,
        hsame.modified_journal, hcongr] using hnewer

/-- The invariant after an append. -/
theorem Tracked.of_appended {codec : JsonCodec} {t now : ℕ} {state state' : TrackedFolder}
    (h : Tracked codec t state) (hnow : t ≤ now) (happended : Appended now state.folder state'.folder)
    (hlatest : state'.latest = some .journal) : Tracked codec (now + 1) state' := by
  obtain ⟨hread, hjson, -, -⟩ := h
  have hcongr : readTranscriptsJson codec state'.folder.files =
      readTranscriptsJson codec state.folder.files := readTranscriptsJson_congr happended.json
  refine ⟨?_, ?_, ?_, ?_⟩
  · rwa [happended.json, hcongr]
  · rw [happended.json, happended.modified_json]
    exact fun hexists => (hjson hexists).imp fun i hi => ⟨by omega, hi.2⟩
  · exact fun _ => ⟨now, Nat.lt_succ_self now, happended.modified_journal⟩
  · rw [hlatest]
    refine ⟨happended.journal, ?_⟩
    rw [happended.json, happended.modified_json, happended.modified_journal]
    intro hexists
    obtain ⟨i, hi, hmodified⟩ := hjson hexists
    exact ⟨i, now, by omega, hmodified, rfl⟩

/-- The invariant after a rewrite. -/
theorem Tracked.of_rewritten {codec : JsonCodec} {t now : ℕ} {segments : List TranscriptSegment}
    {state state' : TrackedFolder} (h : Tracked codec t state) (hnow : t ≤ now)
    (hrewritten : Rewritten codec now segments state.folder state'.folder)
    (hlatest : state'.latest = some (.json segments)) : Tracked codec (now + 1) state' := by
  have hjournal : state'.folder.files transcriptsJournalFilename ≠ none →
      ∃ j < t, state'.folder.modified transcriptsJournalFilename = some j := by
    intro hexists
    obtain ⟨hexisted, hmodified⟩ := hrewritten.modified_journal hexists
    rw [hmodified]
    exact h.modified_journal hexisted
  refine ⟨fun _ => ⟨_, hrewritten.read⟩, fun _ => ⟨now, Nat.lt_succ_self now,
    hrewritten.modified_json⟩, fun hexists => ?_, ?_⟩
  · obtain ⟨j, hj, hmodified⟩ := hjournal hexists
    exact ⟨j, by omega, hmodified⟩
  · rw [hlatest]
    refine ⟨hrewritten.json, hrewritten.read, fun hexists => ?_⟩
    obtain ⟨j, hj, hmodified⟩ := hjournal hexists
    exact ⟨now, j, by omega, hrewritten.modified_json, hmodified⟩

/-- One event keeps the invariant. -/
theorem Tracked.step {serde : Serde} {codec : JsonCodec} {t now : ℕ} {event : FolderEvent}
    {state : TrackedFolder} (h : Tracked codec t state) (hnow : t ≤ now)
    (hkept : event.Kept codec) : Tracked codec (now + 1) (state.step serde codec (now, event)) := by
  rcases step_cases serde hkept state now rfl with
    ⟨hsame, hlatest⟩ | ⟨happended, hlatest⟩ | ⟨segments, hrewritten, hlatest⟩
  · exact h.of_sameFiles (by omega) hsame hlatest
  · exact h.of_appended hnow happended hlatest
  · exact h.of_rewritten hnow hrewritten hlatest

/-- A history at increasing times keeps it. -/
theorem Tracked.foldl {serde : Serde} {codec : JsonCodec} {history : List (ℕ × FolderEvent)}
    {t : ℕ} {state : TrackedFolder} (h : Tracked codec t state) (ht : ∀ e ∈ history, t ≤ e.1)
    (htimes : (history.map Prod.fst).Pairwise (· < ·)) (hkept : ∀ e ∈ history, e.2.Kept codec) :
    ∃ t', Tracked codec t' (history.foldl (TrackedFolder.step serde codec) state) := by
  induction history generalizing t state with
  | nil => exact ⟨t, h⟩
  | cons e history ih =>
    obtain ⟨hfirst, hrest⟩ := List.pairwise_cons.mp htimes
    refine ih (h.step (ht e List.mem_cons_self) (hkept e List.mem_cons_self)) ?_ hrest
      fun e' he' => hkept e' (List.mem_cons_of_mem _ he')
    exact fun e' he' => hfirst e'.1 (List.mem_map_of_mem he')

/-! ## The reader -/

/-- Loading a folder with the invariant returns the latest write exactly if it is not shadowed. -/
theorem Tracked.load_iff {codec : JsonCodec} {t : ℕ} {state : TrackedFolder}
    (serde : Serde) (order : IterationOrder) (h : Tracked codec t state) :
    ReturnsLatest serde codec order state ↔ Unshadowed serde order state := by
  obtain ⟨hread, -, -, hnewer⟩ := h
  rcases hlatest : state.latest with _ | _ | segments <;> rw [hlatest] at hnewer
  · -- nothing was written
    obtain ⟨hjson, hjournal⟩ := hnewer
    simp [ReturnsLatest, Unshadowed, content, hlatest, loadTranscriptsFromFolder, hjson, hjournal]
  · -- the journal was written last
    obtain ⟨hjournal, holder⟩ := hnewer
    refine iff_of_true ?_ (fun segments hjson => by simp [hlatest] at hjson)
    have hsome : (state.folder.files transcriptsJournalFilename).isNone = false := by
      simpa [← Option.ne_none_iff_isSome] using hjournal
    rw [ReturnsLatest, content, hlatest, loadTranscriptsFromFolder]
    rcases hjson : state.folder.files transcriptsJsonFilename with _ | bytes
    · simp only [hsome]
      rcases replayTranscriptJournal serde order state.folder.files with message | journalSegments
        <;> rfl
    · obtain ⟨i, j, hlt, hi, hj⟩ := holder (by simp [hjson])
      obtain ⟨jsonSegments, hok⟩ := hread (by simp [hjson])
      have hfresh : journalNewer state.folder = true := by simp [journalNewer, hi, hj, hlt]
      simp only [hsome, hok, hfresh]
      rcases replayTranscriptJournal serde order state.folder.files with message | journalSegments
        <;> rfl
  · -- transcripts.json was written last
    obtain ⟨hjson, hok, hnewer⟩ := hnewer
    have hjsonSome : (state.folder.files transcriptsJsonFilename).isSome = true := by
      simpa [Option.isSome_iff_ne_none] using hjson
    rw [ReturnsLatest, content, hlatest, loadTranscriptsFromFolder]
    simp only [hjsonSome, hok]
    rcases hjournal : state.folder.files transcriptsJournalFilename with _ | bytes
    · refine iff_of_true rfl fun segments' _ hexists => absurd hjournal hexists
    · obtain ⟨i, j, hlt, hi, hj⟩ := hnewer (by simp [hjournal])
      have hold : journalNewer state.folder = false := by
        simp [journalNewer, hi, hj, hlt.le]
      rcases hreplay : replayTranscriptJournal serde order state.folder.files with
        message | journalSegments
      · simp [Unshadowed, hlatest, hjournal, hreplay]
      · -- the journal is taken exactly if it has more segments
        have hcount : Unshadowed serde order state ↔ journalSegments.length ≤ segments.length := by
          simp [Unshadowed, hlatest, hjournal, hreplay]
        rw [hcount]
        by_cases hle : journalSegments.length ≤ segments.length
        · simp [hold, hle, Nat.not_lt.mpr hle]
        · refine iff_of_false (fun hsame => hle ?_) hle
          have hmore : segments.length < journalSegments.length := Nat.not_le.mp hle
          rw [hold] at hsame
          have hlists := Except.ok.inj ((if_neg (by simp)).symm.trans hsame)
          rw [if_pos (by simp [hmore])] at hlists
          simp [hlists]

/-- A history at increasing times has the invariant. -/
theorem tracked_run (serde : Serde) {codec : JsonCodec} {history : List (ℕ × FolderEvent)}
    (htimes : (history.map Prod.fst).Pairwise (· < ·)) (hkept : ∀ e ∈ history, e.2.Kept codec) :
    ∃ t, Tracked codec t (TrackedFolder.run serde codec history) :=
  (tracked_new codec).foldl (fun e _ => Nat.zero_le e.1) htimes hkept

/-- **The folder reader** returns the latest write, after any history at increasing times, exactly
if that is not shadowed by an old journal. -/
theorem returnsLatest_iff (serde : Serde) {codec : JsonCodec} (order : IterationOrder)
    {history : List (ℕ × FolderEvent)} (htimes : (history.map Prod.fst).Pairwise (· < ·))
    (hkept : ∀ e ∈ history, e.2.Kept codec) :
    ReturnsLatest serde codec order (TrackedFolder.run serde codec history) ↔
      Unshadowed serde order (TrackedFolder.run serde codec history) := by
  obtain ⟨t, htracked⟩ := tracked_run serde htimes hkept
  exact htracked.load_iff serde order

/-- A recording that was stopped: the journal is gone. -/
def stoppedHistory : List (ℕ × FolderEvent) :=
  [(1, .append accented .ok),
    (2, .stop [accented] "2026-01-01T00:00:00+00:00" .ok .ok true)]

theorem keeps_accented :
    accentedCodec.Keeps (transcriptsValue "2026-01-01T00:00:00+00:00" [accented]) :=
  accentedCodec_keeps

theorem returnsLatest_stopped : ReturnsLatest accentedSerde accentedCodec insertionOrder
    (TrackedFolder.run accentedSerde accentedCodec stoppedHistory) :=
  (returnsLatest_iff accentedSerde insertionOrder (by simp [stoppedHistory])
    (by simpa [stoppedHistory, FolderEvent.Kept] using keeps_accented)).mpr
    (fun _ _ hexists => absurd rfl hexists)

/-- A recording that was interrupted after two segments, and a retranscription that found one. -/
def retranscribedHistory : List (ℕ × FolderEvent) :=
  [(1, .append (unnumbered 'a') .ok), (2, .append (unnumbered 'b') .ok),
    (3, .rewrite [accented] "2026-01-01T00:00:00+00:00" .ok .ok)]

/-- The reader returns the two old segments. -/
theorem not_returnsLatest_retranscribed :
    ¬ReturnsLatest unnumberedSerde accentedCodec insertionOrder
      (TrackedFolder.run unnumberedSerde accentedCodec retranscribedHistory) := by
  have htimes : (retranscribedHistory.map Prod.fst).Pairwise (· < ·) := by
    simp [retranscribedHistory]
  have hkept : ∀ e ∈ retranscribedHistory, e.2.Kept accentedCodec := by
    simpa [retranscribedHistory, FolderEvent.Kept] using keeps_accented
  obtain ⟨t, htracked⟩ := tracked_run unnumberedSerde htimes hkept
  rw [htracked.load_iff]
  intro hunshadowed
  have hbytes : (TrackedFolder.run unnumberedSerde accentedCodec retranscribedHistory).folder.files
      transcriptsJournalFilename =
      some (Utf8.encode (journalText unnumberedSerde [unnumbered 'a', unnumbered 'b'])) := rfl
  obtain ⟨journalSegments, hreplay, hcount⟩ :=
    hunshadowed [accented] rfl (by simp [hbytes])
  rw [replayTranscriptJournal_eq unnumberedSerde_readsJson insertionOrder
    unnumberedSerde_keeps_both hbytes] at hreplay
  obtain rfl := Except.ok.inj hreplay
  simp [sortSegmentsChronologically, insertionOrder, lastWrites, SameKey, unnumbered] at hcount

end TranscriptsJson

end MeetilyLocal
