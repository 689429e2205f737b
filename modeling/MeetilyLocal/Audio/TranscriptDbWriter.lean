import MeetilyLocal.Audio.LiveTranscript
import MeetilyLocal.Library.Upserts

/-!
# The database writer

The embedding of `TranscriptDbWriter` (`audio/transcript_db_writer.rs`) by itself, for segments of
any meetings: what is enqueued goes through a channel to a task that collects batches of it and
writes each one with `upsert_transcript_segments`, when it is full, when the interval ticks, and when
the channel has been closed.

However the items are grouped, the table is the one that upserts one by one leave, and so, but for
the order of its rows, the one that the last item of each meeting and sequence number leaves
(`upserted_of_reaches`). Items without a sequence number are all kept (`not_upserted_of_unnumbered`).
-/

namespace MeetilyLocal

open TranscriptsRepository

/-- What is sent to the writer: a meeting, and a segment of it. -/
abbrev Item : Type := String × TranscriptSegment

/-- The key of an item: its meeting and its sequence number, if it has one. -/
def itemKey (item : Item) : Option (String × UInt64) :=
  item.2.sequenceId.map fun number => (item.1, number)

/-- The writer, and what was ever sent to it. -/
structure TranscriptDbWriter : Type where
  /-- the handle has not been dropped -/
  sender : Bool
  /-- what is in the channel -/
  queue : List Item
  /-- what the task has received and not written -/
  batch : List Item
  /-- the task has not ended -/
  running : Bool
  /-- the database -/
  db : Database
  /-- a flush has failed -/
  failed : Bool
  /-- what was sent, in that order -/
  sent : List Item

namespace TranscriptDbWriter

/-- The writer when it starts. -/
def start (db : Database) : TranscriptDbWriter where
  sender := true
  queue := []
  batch := []
  running := true
  db := db
  failed := false
  sent := []

variable (env : SqlEnv) (st : TranscriptDbWriter)

/-- Queue an item; without a task to receive it, it is dropped. -/
def enqueue (item : Item) : TranscriptDbWriter :=
  { st with queue := if st.running then st.queue ++ [item] else st.queue, sent := st.sent ++ [item] }

/-- Write the batch; it is dropped if that fails. -/
def flush : TranscriptDbWriter :=
  if st.batch.isEmpty then st
  else
    match upsertTranscriptSegments env st.db st.batch with
    | .ok (_, db) => { st with batch := [], db := db }
    | .error _ => { st with batch := [], failed := true }

/-- The task receives an item. -/
def receive (item : Item) (rest : List Item) : TranscriptDbWriter :=
  let received := { st with queue := rest, batch := st.batch ++ [item] }
  if LiveTranscript.batchSize ≤ received.batch.length then received.flush env else received

/-- What can happen next. -/
inductive Step : TranscriptDbWriter → TranscriptDbWriter → Prop where
  /-- an item is sent -/
  | enqueue {st : TranscriptDbWriter} (hsender : st.sender = true) (item : Item) :
      Step st (st.enqueue item)
  /-- the handle is dropped -/
  | dropSender {st : TranscriptDbWriter} : Step st { st with sender := false }
  /-- the task receives an item -/
  | receive {st : TranscriptDbWriter} {item : Item} {rest : List Item}
      (hrunning : st.running = true) (hqueue : st.queue = item :: rest) (env : SqlEnv) :
      Step st (st.receive env item rest)
  /-- the interval ticks -/
  | tick {st : TranscriptDbWriter} (hrunning : st.running = true) (env : SqlEnv) :
      Step st (st.flush env)
  /-- the channel is closed -/
  | close {st : TranscriptDbWriter} (hrunning : st.running = true) (hqueue : st.queue = [])
      (hsender : st.sender = false) (env : SqlEnv) :
      Step st { st.flush env with running := false }

/-- Any number of steps. -/
def Reaches : TranscriptDbWriter → TranscriptDbWriter → Prop := Relation.ReflTransGen Step

/-! ## Upserts one by one -/

/-- The rows of `transcripts`, with the key that an upsert goes by; the primary key of a row stays when
another is put in its place. -/
def transcriptRows : Keyed TranscriptRow (String × UInt64) where
  key row := row.sequenceId.map fun number => (row.meetingId, number.toUInt64)
  put row old := { row with id := old.id }
  key_put _ _ := rfl
  put_put _ _ _ := rfl
  put_left _ _ _ := rfl

/-- The table after upserts of the items, one by one, under some primary keys and at some times. -/
def Upserted (db : Database) (items : List Item) (db' : Database) : Prop :=
  ∃ pairs : List (Item × TranscriptRow), (∀ pair ∈ pairs, IsRowOf pair.1.1 pair.1.2 pair.2) ∧
    pairs.map Prod.fst = items ∧
    db' = { db with transcripts := transcriptRows.upserts db.transcripts (pairs.map Prod.snd) }

theorem key_of_isRowOf {item : Item} {row : TranscriptRow} (h : IsRowOf item.1 item.2 row) :
    transcriptRows.key row = itemKey item := by
  rw [transcriptRows, itemKey]
  simp only [h.sequenceId_eq, h.meetingId_eq, Option.map_map]
  congr 1

theorem isRowOf_put {item : Item} {row : TranscriptRow} (old : TranscriptRow)
    (h : IsRowOf item.1 item.2 row) : IsRowOf item.1 item.2 (transcriptRows.put row old) := by
  obtain ⟨now, hrow⟩ := h
  refine ⟨now, ?_⟩
  rw [hrow]
  rfl

variable {env : SqlEnv} {db db' db'' : Database} {items : List Item}

theorem Upserted.refl (db : Database) : Upserted db [] db := ⟨[], by simp, rfl, rfl⟩

theorem Upserted.trans {later : List Item} (h : Upserted db items db')
    (h' : Upserted db' later db'') : Upserted db (items ++ later) db'' := by
  obtain ⟨pairs, hpairs, rfl, rfl⟩ := h
  obtain ⟨pairs', hpairs', rfl, rfl⟩ := h'
  refine ⟨pairs ++ pairs', List.forall_mem_append.mpr ⟨hpairs, hpairs'⟩, List.map_append, ?_⟩
  rw [List.map_append, Keyed.upserts_append]

/-- The condition of an upsert is that a row has the same key. -/
theorem decide_sameKeyed (row old : TranscriptRow) :
    (row.sequenceId.isSome && old.meetingId == row.meetingId && old.sequenceId == row.sequenceId) =
      decide (SameKeyed transcriptRows.key row old) := by
  have hinj : ∀ {n n' : Int64}, n.toUInt64 = n'.toUInt64 ↔ n = n' :=
    ⟨congrArg Int64.ofUInt64, congrArg Int64.toUInt64⟩
  rw [Bool.eq_iff_iff, decide_eq_true_iff, SameKeyed, transcriptRows]
  cases hrow : row.sequenceId with
  | none => simp [hrow]
  | some number =>
    cases hold : old.sequenceId with
    | none => simp [hrow, hold]
    | some number' =>
      simp only [hrow, hold, Option.isSome_some, Option.map_some, Bool.true_and, Bool.and_eq_true,
        beq_iff_eq, Option.some.injEq, Prod.mk.injEq, hinj, ne_eq, reduceCtorEq, not_false_eq_true,
        true_and]
      exact and_congr eq_comm eq_comm

/-- The statement of an upsert, if it succeeds. -/
theorem upsertRow_eq_ok {row : TranscriptRow} (h : upsertRow db row = .ok db') :
    db' = { db with transcripts := transcriptRows.upsert db.transcripts row } := by
  unfold upsertRow at h
  simp only [decide_sameKeyed, List.any_eq_true, decide_eq_true_eq] at h
  split at h
  · next hany =>
    obtain rfl := Except.ok.inj h
    rw [Keyed.upsert, if_pos hany]
    rfl
  · next hnone =>
    unfold insertRow at h
    split at h
    · cases h
    split at h
    · cases h
    split at h
    · cases h
    obtain rfl := Except.ok.inj h
    rw [Keyed.upsert, if_neg hnone]

theorem upserted_of_upsertAll {k : ℕ} (h : upsertAll env k db items = .ok db') :
    Upserted db items db' := by
  induction items generalizing k db with
  | nil =>
    obtain rfl := Except.ok.inj h
    exact .refl db
  | cons item items ih =>
    obtain ⟨meetingId, segment⟩ := item
    unfold upsertAll at h
    split at h
    · simp only at h
      split at h
      · next db₁ hrow =>
        have hfirst : Upserted db [(meetingId, segment)] db₁ :=
          ⟨[((meetingId, segment), segmentRow ("transcript-" ++ env.uuid k) meetingId (env.now k)
            segment)], by simpa using ⟨env.now k, rfl⟩, rfl, upsertRow_eq_ok hrow⟩
        exact hfirst.trans (ih h)
      · cases h
    · cases h

theorem upserted_of_upsertTranscriptSegments {count : ℕ}
    (h : upsertTranscriptSegments env db items = .ok (count, db')) : Upserted db items db' := by
  unfold upsertTranscriptSegments at h
  split at h
  · next hempty =>
    obtain ⟨-, rfl⟩ := Prod.mk.inj (Except.ok.inj h)
    rw [List.isEmpty_iff.mp hempty]
    exact .refl db
  · split at h
    · next db₁ hall =>
      split at h
      · obtain ⟨-, rfl⟩ := Prod.mk.inj (Except.ok.inj h)
        exact upserted_of_upsertAll hall
      · cases h
    · cases h

/-- **Only the last items count**, but for the order of the rows. -/
theorem Upserted.lasts (h : Upserted db items db') :
    ∃ db'', Upserted db (lasts itemKey items) db'' ∧ db'.transcripts.Perm db''.transcripts ∧
      db'.meetings = db''.meetings ∧ db'.voiceProfiles = db''.voiceProfiles := by
  obtain ⟨pairs, hpairs, rfl, rfl⟩ := h
  obtain ⟨kept, hkept, hlasts, hperm⟩ := transcriptRows.exists_lasts
    (fun item row => IsRowOf item.1 item.2 row) key_of_isRowOf isRowOf_put db.transcripts pairs
    hpairs
  exact ⟨_, ⟨kept, hkept, hlasts, rfl⟩, hperm, rfl, rfl⟩

/-! ## Runs -/

variable {st st' : TranscriptDbWriter}

/-- What holds of the writer at any time: as long as no flush has failed, what was sent is written but
for what is in the batch and in the channel; and when the task ends nothing is in either. -/
structure Tracks (db : Database) (st : TranscriptDbWriter) : Prop where
  /-- nothing is left behind -/
  ended : st.running = false → st.sender = false ∧ st.batch = [] ∧ st.queue = []
  /-- nothing is lost -/
  written : st.failed = false →
    ∃ written, st.sent = written ++ st.batch ++ st.queue ∧ Upserted db written st.db

theorem tracks_start (db : Database) : Tracks db (start db) :=
  ⟨nofun, fun _ => ⟨[], rfl, .refl db⟩⟩

/-- A flush leaves an empty batch, and changes the channel in no way. -/
theorem flush_fields (env : SqlEnv) (st : TranscriptDbWriter) :
    (st.flush env).batch = [] ∧ (st.flush env).queue = st.queue ∧
      (st.flush env).sender = st.sender ∧ (st.flush env).running = st.running ∧
      (st.flush env).sent = st.sent := by
  rw [flush]
  split
  · next hempty => exact ⟨List.isEmpty_iff.mp hempty, rfl, rfl, rfl, rfl⟩
  · split <;> exact ⟨rfl, rfl, rfl, rfl, rfl⟩

theorem Tracks.flush (h : Tracks db st) (env : SqlEnv) : Tracks db (st.flush env) := by
  obtain ⟨hbatch, hqueue, hsender, hrunning, hsent⟩ := flush_fields env st
  refine ⟨fun hended => ?_, fun hok => ?_⟩
  · rw [hrunning] at hended
    rw [hbatch, hqueue, hsender]
    exact ⟨(h.ended hended).1, rfl, (h.ended hended).2.2⟩
  · rw [hbatch, hqueue, hsent]
    simp only [List.append_nil]
    rw [TranscriptDbWriter.flush] at hok ⊢
    split at hok
    · next hempty =>
      obtain ⟨written, hsplit, hupserted⟩ := h.written hok
      rw [List.isEmpty_iff.mp hempty, List.append_nil] at hsplit
      exact ⟨written, hsplit, by rwa [if_pos hempty]⟩
    · next hfull =>
      split at hok
      · next count db' hupsert =>
        obtain ⟨written, hsplit, hupserted⟩ := h.written hok
        refine ⟨written ++ st.batch, hsplit, ?_⟩
        rw [if_neg hfull]
        exact hupserted.trans (upserted_of_upsertTranscriptSegments hupsert)
      · cases hok

theorem Tracks.step (h : Tracks db st) (hstep : Step st st') : Tracks db st' := by
  cases hstep with
  | enqueue hsender item =>
    -- as long as the handle is there, so is the task
    have hrunning : st.running = true := by
      rw [← Bool.not_eq_false]
      intro hended
      rw [(h.ended hended).1] at hsender
      exact absurd hsender (by simp)
    refine ⟨fun hended => absurd (hrunning.symm.trans hended) (by simp), fun hok => ?_⟩
    obtain ⟨written, hsent, hupserted⟩ := h.written hok
    refine ⟨written, ?_, hupserted⟩
    simp only [enqueue, hrunning, if_true, hsent, List.append_assoc]
  | dropSender => exact ⟨fun hended => ⟨rfl, (h.ended hended).2⟩, h.written⟩
  | @receive item rest hrunning hqueue env =>
    have hreceived : Tracks db { st with queue := rest, batch := st.batch ++ [item] } := by
      refine ⟨fun hended => absurd (hrunning.symm.trans hended) (by simp), fun hok => ?_⟩
      obtain ⟨written, hsent, hupserted⟩ := h.written hok
      exact ⟨written, by simpa [hqueue] using hsent, hupserted⟩
    rw [receive]
    split
    · exact hreceived.flush env
    · exact hreceived
  | tick _ env => exact h.flush env
  | close _ hqueue hsender env =>
    obtain ⟨hbatch, hqueue', hsender', -, -⟩ := flush_fields env st
    refine ⟨fun _ => ⟨hsender'.trans hsender, hbatch, hqueue'.trans hqueue⟩, ?_⟩
    exact (h.flush env).written

theorem Tracks.reaches (h : Tracks db st) (hreach : Reaches st st') : Tracks db st' := by
  induction hreach with
  | refl => exact h
  | tail _ hstep ih => exact ih.step hstep

/-- **The table in the end**: if no flush has failed, it is the one that upserts of all that was sent
leave, one by one, and but for the order of its rows the one that those of the last items leave. -/
theorem upserted_of_reaches (hreach : Reaches (start db) st) (hended : st.running = false)
    (hok : st.failed = false) :
    Upserted db st.sent st.db ∧ ∃ db', Upserted db (MeetilyLocal.lasts itemKey st.sent) db' ∧
      st.db.transcripts.Perm db'.transcripts ∧ st.db.meetings = db'.meetings ∧
      st.db.voiceProfiles = db'.voiceProfiles := by
  have htracks := (tracks_start db).reaches hreach
  obtain ⟨-, hbatch, hqueue⟩ := htracks.ended hended
  obtain ⟨written, hsent, hupserted⟩ := htracks.written hok
  rw [hbatch, hqueue, List.append_nil, List.append_nil] at hsent
  rw [hsent]
  exact ⟨hupserted, hupserted.lasts⟩

/-- When the handle has been dropped, the task comes to its end. -/
theorem exists_ended (hrunning : st.running = true) (hsender : st.sender = false) (env : SqlEnv) :
    ∃ st', Reaches st st' ∧ st'.running = false := by
  generalize hqueue : st.queue = queue
  induction queue generalizing st with
  | nil => exact ⟨_, .single (.close hrunning hqueue hsender env), rfl⟩
  | cons item rest ih =>
    have hstep : Step st (st.receive env item rest) := .receive hrunning hqueue env
    have hreceived : (st.receive env item rest).running = st.running ∧
        (st.receive env item rest).sender = st.sender ∧ (st.receive env item rest).queue = rest := by
      rw [receive]
      split
      · obtain ⟨-, hqueue', hsender', hrunning', -⟩ :=
          flush_fields env { st with queue := rest, batch := st.batch ++ [item] }
        exact ⟨hrunning', hsender', hqueue'⟩
      · exact ⟨rfl, rfl, rfl⟩
    obtain ⟨hrunning', hsender', hrest⟩ := hreceived
    obtain ⟨st', hreach, hended⟩ :=
      ih (hrunning'.trans hrunning) (hsender'.trans hsender) hrest
    exact ⟨st', .head hstep hreach, hended⟩

/-! ### Runs with two items -/

/-- The writer when two items were sent, the handle was dropped, and the task has ended. -/
def afterTwo (env : SqlEnv) (db : Database) (first second : Item) : TranscriptDbWriter :=
  { ({ start db with
      sender := false, batch := [first, second], sent := [first, second] }).flush env with
    running := false }

theorem reaches_afterTwo (env : SqlEnv) (db : Database) (first second : Item) :
    Reaches (start db) (afterTwo env db first second) := by
  let sent := ((start db).enqueue first).enqueue second
  have hsent : Reaches (start db) sent :=
    .head (.enqueue rfl first) (.single (.enqueue rfl second))
  let received := (sent.receive env first [second]).receive env second []
  have hreceived : Reaches sent received :=
    .head (.receive rfl rfl env) (.single (.receive rfl rfl env))
  have hended : Reaches received (afterTwo env db first second) :=
    .head .dropSender (.single (.close rfl rfl rfl env))
  exact (hsent.trans hreceived).trans hended

/-- A segment of the microphone. -/
def spokenSegment (sequenceId : Option UInt64) (text : String) : TranscriptSegment where
  id := "seg"
  text := text
  timestamp := none
  audioStartTime := none
  audioEndTime := none
  duration := none
  displayTime := none
  confidence := none
  sequenceId := sequenceId
  speaker := none
  voiceProfileId := none
  source := some "mic"

/-- All statements are executed. -/
def executed : SqlEnv := ⟨fun _ => true, fun _ => "2026-01-01T10:00:01+00:00", toString⟩

/-- The database of a meeting. -/
def meetingDatabase : Database := ⟨["meeting-2"], [], []⟩

/-- Two versions of a segment. -/
def revised : TranscriptDbWriter :=
  afterTwo executed meetingDatabase ("meeting-2", spokenSegment (some 1) "partial text")
    ("meeting-2", spokenSegment (some 1) "final text")

theorem upserted_of_reaches_revised :
    revised.failed = false ∧ revised.db.transcripts.length = 1 ∧
      Upserted meetingDatabase revised.sent revised.db := by
  have hok : revised.failed = false := by decide +kernel
  refine ⟨hok, by decide +kernel, ?_⟩
  exact (upserted_of_reaches (reaches_afterTwo _ _ _ _) rfl hok).1

/-- Two segments without a sequence number. -/
def unnumbered : TranscriptDbWriter :=
  afterTwo executed meetingDatabase ("meeting-2", spokenSegment none "hello")
    ("meeting-2", spokenSegment none "world")

/-- **Segments without a sequence number are all kept**, although they agree in the meeting and in what
they have for a number. -/
theorem not_upserted_of_unnumbered :
    Reaches (start meetingDatabase) unnumbered ∧ unnumbered.running = false ∧
    unnumbered.failed = false ∧
    ¬∃ db', Upserted meetingDatabase
        (MeetilyLocal.lasts (fun item : Item => some (item.1, item.2.sequenceId)) unnumbered.sent) db' ∧
      unnumbered.db.transcripts.Perm db'.transcripts := by
  refine ⟨reaches_afterTwo _ _ _ _, rfl, by decide +kernel, ?_⟩
  rintro ⟨db', ⟨pairs, -, hitems, rfl⟩, hperm⟩
  have hone : pairs.length = 1 := by
    rw [← List.length_map Prod.fst, hitems]
    decide +kernel
  obtain ⟨pair, rfl⟩ := List.length_eq_one_iff.mp hone
  have htwo : unnumbered.db.transcripts.length = 2 := by decide +kernel
  have hlength := hperm.length_eq
  rw [htwo] at hlength
  simp [meetingDatabase, Keyed.upserts, Keyed.upsert] at hlength

end TranscriptDbWriter

end MeetilyLocal
