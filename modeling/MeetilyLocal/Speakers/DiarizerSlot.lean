import MeetilyLocal.Speakers.HistoryAgreement

/-!
# The diarizer slot

There is one current diarizer in the process, and it does not know whose meeting it serves: a
recording installs its own, a batch job that ends while nothing is recorded installs the one that it
used, and whoever names a speaker of any meeting asks the current one. What a voice profile is made
of is therefore right in a history in which a diarizer is only ever fed by, and asked for, the
meeting whose segment it diarized first (`DiarizerSlot.usesOwnVoice_of_reaches`).
-/

namespace MeetilyLocal

open TranscriptsRepository SpeakerService

/-- A diarizer, and the meeting of each record of its history, which the program does not keep. -/
structure Installed : Type where
  /-- the diarizer -/
  diarizer : Diarizer
  /-- the meetings of its records, in order -/
  meetings : List String

namespace Installed

/-- The first segment that was diarized is of that meeting, if there is one. -/
def Serves (installed : Installed) (meetingId : String) : Prop :=
  ∀ first, installed.meetings.head? = some first → first = meetingId

/-- The records under a label, with their meetings. -/
def voices (installed : Installed) (label : String) : List (EmbeddingRecord × String) :=
  (installed.diarizer.history.zip installed.meetings).filter fun voice => voice.1.label == label

/-- `process` of a segment of a meeting. -/
def process (installed : Installed) (meetingId : String) (sequenceId : UInt64)
    (samples : List Float32) (embedding : Option (List Float32)) : Installed :=
  match installed.diarizer.process sequenceId samples embedding with
  | .ok (_, diarizer) => ⟨diarizer, installed.meetings ++ [meetingId]⟩
  | .error _ => installed

end Installed

/-- What is shared between recordings, batch jobs and the meeting view. -/
structure DiarizerSlot : Type where
  /-- `DIARIZER` -/
  current : Option Installed
  /-- `is_recording` -/
  recording : Bool
  /-- the diarizers of batch jobs that saw no recording and are about to install them -/
  installing : List Installed
  /-- the database -/
  db : Database

namespace DiarizerSlot

/-- What `build_diarizer` loads: the speaker model and the stored voice profiles. -/
structure Models : Type where
  /-- the speaker model -/
  embedder : List Float32 → Except String (List Float32)
  /-- the stored voice profiles -/
  profileMatcher : Option SpeakerProfileMatcher

/-- A diarizer that has seen nothing. -/
def fresh (models : Models) : Installed :=
  ⟨.new models.embedder defaultClusterThreshold models.profileMatcher, []⟩

/-- The diarizer after a batch transcription: its segments are numbered from `k` on, and each has its
samples and the hint of the offline pass. -/
def runBatch (meetingId : String) : ℕ → Installed → List (List Float32 × Option ℕ) → Installed
  | _, installed, [] => installed
  | k, installed, (samples, forcedCluster) :: segments =>
    match installed.diarizer.processWithHint (UInt64.ofNat k) samples none forcedCluster with
    | .ok (_, diarizer) =>
      runBatch meetingId (k + 1) ⟨diarizer, installed.meetings ++ [meetingId]⟩ segments
    | .error _ => runBatch meetingId (k + 1) installed segments

/-- What happens to the slot. -/
inductive Op : Type where
  /-- a diarizer is built in advance, at startup or after the model was downloaded -/
  | preInit (built : Except String (Option Models))
  /-- `try_init_for_recording` -/
  | tryInitForRecording (built : Except String (Option Models))
  /-- a recording begins or ends -/
  | setRecording (recording : Bool)
  /-- the worker of a recording diarizes a segment of its meeting -/
  | live (meetingId : String) (sequenceId : UInt64) (samples : List Float32)
      (embedding : Option (List Float32))
  /-- the import or retranscription of a meeting looks whether there is a recording -/
  | batchEnds (meetingId : String) (models : Models) (segments : List (List Float32 × Option ℕ))
  /-- it installs its diarizer -/
  | batchInstalls (job : ℕ)
  /-- `promote_speaker_to_profile_core` -/
  | promote (env : SqlEnv) (meetingId oldLabel trimmedName : String)
      (normalisedEmail : Option String)
  /-- `merge_cluster_into_profile_core` -/
  | mergeCluster (env : SqlEnv) (meetingId oldLabel profileId : String)
  /-- `refine_and_persist` -/
  | refine (env : SqlEnv) (meetingId : String)
  /-- anything else that changes the tables -/
  | tables (db : Database)

/-- The current diarizer. -/
def slot (s : DiarizerSlot) : Option Diarizer := s.current.map Installed.diarizer

/-- The slot after an operation. -/
def exec (s : DiarizerSlot) : Op → DiarizerSlot
  | .preInit built =>
    match built with
    | .ok (some models) => { s with current := some (fresh models) }
    -- a model that is missing or does not load leaves the slot
    | .ok none => s
    | .error _ => s
  | .tryInitForRecording built =>
    match built with
    | .ok (some models) => { s with current := some (fresh models) }
    | .ok none => { s with current := none }
    -- the recording goes on, and so does the diarizer that was there
    | .error _ => s
  | .setRecording recording => { s with recording := recording }
  | .live meetingId sequenceId samples embedding =>
    { s with current := s.current.map fun installed =>
        installed.process meetingId sequenceId samples embedding }
  | .batchEnds meetingId models segments =>
    if s.recording then s
    else { s with installing := s.installing ++ [runBatch meetingId 0 (fresh models) segments] }
  | .batchInstalls job =>
    match s.installing[job]? with
    | some installed =>
      { s with current := some installed, installing := s.installing.eraseIdx job }
    | none => s
  | .promote env meetingId oldLabel trimmedName normalisedEmail =>
    { s with db := (promoteSpeakerToProfileCore env s.slot s.db oldLabel trimmedName
        normalisedEmail meetingId).2 }
  | .mergeCluster env meetingId oldLabel profileId =>
    { s with db := (mergeClusterIntoProfileCore env s.slot s.db meetingId oldLabel profileId).2 }
  | .refine env meetingId =>
    let (slot, db) := (refineAndPersist env s.slot s.db meetingId).2
    { s with
      current := s.current.map fun installed =>
        { installed with diarizer := slot.getD installed.diarizer }
      db := db }
  | .tables db => { s with db := db }

/-- The process at its start. -/
def start (db : Database) : DiarizerSlot := ⟨none, false, [], db⟩

/-- The states that are reached with the operations that are allowed. -/
inductive Reaches (allows : DiarizerSlot → Op → Prop) (s : DiarizerSlot) : DiarizerSlot → Prop where
  /-- before any operation -/
  | refl : Reaches allows s s
  /-- after one more operation -/
  | step {t : DiarizerSlot} (op : Op) : Reaches allows s t → allows t op →
      Reaches allows s (exec t op)

/-! ## Whose voice is used -/

/-- The embeddings under a label are those of segments of that meeting. -/
def AveragesOwn (s : DiarizerSlot) (meetingId label : String) : Prop :=
  ∃ voices : List (EmbeddingRecord × String),
    (∀ voice ∈ voices, ∃ installed, s.current = some installed ∧
      voice ∈ installed.diarizer.history.zip installed.meetings ∧ voice.2 = meetingId) ∧
    reachableEmbeddings s.slot label = voices.map fun voice => voice.1.embedding

/-- What a refinement writes comes from a history of that meeting only. -/
def RefinesOwn (s : DiarizerSlot) (meetingId : String) : Prop :=
  ∀ installed refined, s.current = some installed → installed.diarizer.refine = some refined →
    refinementUpdates refined ≠ [] →
      installed.meetings = List.replicate installed.diarizer.history.length meetingId

/-- An operation uses the voices of its own meeting. -/
def UsesOwnVoice (s : DiarizerSlot) : Op → Prop
  | .promote _ meetingId oldLabel _ _ => AveragesOwn s meetingId oldLabel
  | .mergeCluster _ meetingId oldLabel _ => AveragesOwn s meetingId oldLabel
  | .refine _ meetingId => RefinesOwn s meetingId
  | _ => True

/-- The current diarizer is fed by, and asked for, the meeting that it serves; a label that it does
not know can be asked for any meeting. -/
def Careful (s : DiarizerSlot) : Op → Prop
  | .live meetingId _ _ _ => ∀ installed, s.current = some installed → installed.Serves meetingId
  | .promote _ meetingId oldLabel _ _ | .mergeCluster _ meetingId oldLabel _ =>
    ∀ installed, s.current = some installed → reachableEmbeddings s.slot oldLabel ≠ [] →
      installed.Serves meetingId
  | .refine _ meetingId => ∀ installed, s.current = some installed → installed.Serves meetingId
  | _ => True

/-! ## What every step keeps -/

end DiarizerSlot

namespace Installed

variable {installed : Installed} {meetingId : String}

/-- A diarizer that serves a meeting has records of that meeting only. -/
def Own (installed : Installed) : Prop :=
  ∀ meetingId, installed.Serves meetingId →
    installed.meetings = List.replicate installed.diarizer.history.length meetingId

theorem own_of_replicate
    (h : installed.meetings = List.replicate installed.diarizer.history.length meetingId) :
    installed.Own := by
  intro other hserves
  cases hlength : installed.diarizer.history.length with
  | zero =>
    rw [h, hlength]
    rfl
  | succ n =>
    rw [h, hlength]
    have hfirst : meetingId = other := hserves meetingId (by rw [h, hlength]; rfl)
    rw [hfirst]

/-- The meetings do not change with the labels. -/
theorem Own.of_history {d : Diarizer} (h : installed.Own)
    (hlength : d.history.length = installed.diarizer.history.length) :
    Own { installed with diarizer := d } := by
  intro meetingId hserves
  rw [hlength]
  exact h meetingId hserves

/-- A diarizer that is fed by the meeting that it serves. -/
theorem Own.push (h : installed.Own) (hserves : installed.Serves meetingId) {d : Diarizer}
    {record : EmbeddingRecord} (hhistory : d.history = installed.diarizer.history ++ [record]) :
    Own ⟨d, installed.meetings ++ [meetingId]⟩ ∧ Serves ⟨d, installed.meetings ++ [meetingId]⟩
      meetingId := by
  have hmeetings : installed.meetings ++ [meetingId] =
      List.replicate d.history.length meetingId := by
    rw [h meetingId hserves, hhistory, List.length_append]
    exact List.replicate_succ'.symm
  refine ⟨own_of_replicate hmeetings, fun first hfirst => ?_⟩
  rw [hmeetings] at hfirst
  exact List.eq_of_mem_replicate (List.mem_of_mem_head? hfirst)

theorem Own.process (h : installed.Own) (hserves : installed.Serves meetingId)
    (sequenceId : UInt64) (samples : List Float32) (embedding : Option (List Float32)) :
    (installed.process meetingId sequenceId samples embedding).Own := by
  rw [Installed.process]
  split
  · next hprocess =>
    obtain ⟨_, hhistory⟩ := Diarizer.of_processInner hprocess
    exact (h.push hserves hhistory).1
  · exact h

theorem Own.runBatch (h : installed.Own) (hserves : installed.Serves meetingId) (k : ℕ)
    (segments : List (List Float32 × Option ℕ)) :
    (DiarizerSlot.runBatch meetingId k installed segments).Own := by
  induction segments generalizing k installed with
  | nil => exact h
  | cons segment segments ih =>
    rw [DiarizerSlot.runBatch]
    split
    · next hprocess =>
      obtain ⟨_, hhistory⟩ := Diarizer.of_processInner hprocess
      obtain ⟨hown, hown'⟩ := h.push hserves hhistory
      exact ih hown hown' (k + 1)
    · exact ih h hserves (k + 1)

/-- The embeddings under a label, where every record has its meeting. -/
theorem map_voices (hlength : installed.diarizer.history.length ≤ installed.meetings.length)
    (label : String) : (installed.voices label).map (fun voice => voice.1.embedding) =
      installed.diarizer.embeddingsForLabel label := by
  have hfst : (installed.voices label).map Prod.fst =
      installed.diarizer.history.filter fun record => record.label == label := by
    rw [voices, ← List.map_fst_zip hlength, List.filter_map, List.map_fst_zip hlength]
    rfl
  rw [Diarizer.embeddingsForLabel, ← hfst, List.map_map]
  rfl

end Installed

namespace DiarizerSlot

variable {s : DiarizerSlot} {meetingId : String}

theorem own_fresh (models : Models) : (fresh models).Own := fun _ _ => rfl

theorem serves_fresh (models : Models) (meetingId : String) : (fresh models).Serves meetingId :=
  fun _ hfirst => nomatch hfirst

/-- The diarizers that are current, or about to be, have records of one meeting each. -/
structure AllOwn (s : DiarizerSlot) : Prop where
  /-- the current one -/
  current : ∀ installed, s.current = some installed → installed.Own
  /-- those of batch jobs -/
  installing : ∀ installed ∈ s.installing, installed.Own

theorem length_history_refine {env : SqlEnv} {installed : Installed}
    (h : s.current = some installed) :
    ((refineAndPersist env s.slot s.db meetingId).2.1.getD installed.diarizer).history.length =
      installed.diarizer.history.length := by
  rw [slot, h, Option.map_some]
  rcases refineAndPersist_cases with hsame | ⟨refined, refinedDb, -, -, -, heq⟩
  · rw [hsame]
    rfl
  · rw [heq]
    exact List.length_map _

theorem AllOwn.exec (h : s.AllOwn) {op : Op} (hcareful : Careful s op) : (exec s op).AllOwn := by
  have hfresh : ∀ models installed, some (fresh models) = some installed → installed.Own :=
    fun models _ heq => Option.some.inj heq ▸ own_fresh models
  cases op with
  | preInit built =>
    rcases built with _ | _ | models
    · exact h
    · exact h
    · exact ⟨hfresh models, h.installing⟩
  | tryInitForRecording built =>
    rcases built with _ | _ | models
    · exact h
    · refine ⟨?_, h.installing⟩
      rintro _ ⟨⟩
    · exact ⟨hfresh models, h.installing⟩
  | setRecording recording => exact ⟨h.current, h.installing⟩
  | live meetingId sequenceId samples embedding =>
    refine ⟨fun installed hinstalled => ?_, h.installing⟩
    obtain ⟨before, hbefore, rfl⟩ := Option.map_eq_some_iff.mp hinstalled
    exact (h.current before hbefore).process (hcareful before hbefore) sequenceId samples embedding
  | batchEnds meetingId models segments =>
    rw [DiarizerSlot.exec]
    split
    · exact h
    · refine ⟨h.current, fun installed hmem => ?_⟩
      rcases List.mem_append.mp hmem with hold | hnew
      · exact h.installing installed hold
      · exact List.mem_singleton.mp hnew ▸
          (own_fresh models).runBatch (serves_fresh models meetingId) 0 segments
  | batchInstalls job =>
    rw [DiarizerSlot.exec]
    split
    · next installed hjob =>
      refine ⟨?_, fun other hmem => h.installing other (List.mem_of_mem_eraseIdx hmem)⟩
      rintro _ ⟨⟩
      exact h.installing installed (List.mem_of_getElem? hjob)
    · exact h
  | promote env meetingId oldLabel trimmedName normalisedEmail => exact ⟨h.current, h.installing⟩
  | mergeCluster env meetingId oldLabel profileId => exact ⟨h.current, h.installing⟩
  | refine env meetingId =>
    refine ⟨fun installed hinstalled => ?_, h.installing⟩
    obtain ⟨before, hbefore, rfl⟩ := Option.map_eq_some_iff.mp hinstalled
    exact (h.current before hbefore).of_history (length_history_refine hbefore)
  | tables db => exact ⟨h.current, h.installing⟩

theorem allOwn_of_reaches {db : Database} (h : Reaches Careful (start db) s) : s.AllOwn := by
  induction h with
  | refl =>
    refine ⟨fun installed hnone => ?_, fun installed hmem => absurd hmem List.not_mem_nil⟩
    exact absurd hnone (by simp [start])
  | step op _ hcareful ih => exact ih.exec hcareful

/-- A label that is asked for the meeting that is served. -/
theorem AllOwn.averagesOwn (h : s.AllOwn) {label : String}
    (hserves : ∀ installed, s.current = some installed → reachableEmbeddings s.slot label ≠ [] →
      installed.Serves meetingId) : AveragesOwn s meetingId label := by
  rcases hempty : reachableEmbeddings s.slot label with _ | ⟨embedding, embeddings⟩
  · exact ⟨[], fun _ hmem => absurd hmem List.not_mem_nil, hempty⟩
  cases hcurrent : s.current with
  | none =>
    rw [reachableEmbeddings, slot, hcurrent] at hempty
    cases hempty
  | some installed =>
    have hmeetings := h.current installed hcurrent meetingId
      (hserves installed hcurrent (by rw [hempty]; exact List.cons_ne_nil _ _))
    refine ⟨installed.voices label, fun voice hvoice => ?_, ?_⟩
    · have hzip := (List.mem_filter.mp hvoice).1
      refine ⟨installed, hcurrent, hzip, ?_⟩
      have hmem := (List.of_mem_zip hzip).2
      rw [hmeetings] at hmem
      exact List.eq_of_mem_replicate hmem
    · rw [Installed.map_voices (by simp [hmeetings]), reachableEmbeddings, slot, hcurrent]
      rfl

/-- **Own voices.** In a history in which the current diarizer is fed by, and asked for, the meeting
that it serves, every profile is averaged from the embeddings of its own meeting and every
refinement is computed from a history of its own meeting. -/
theorem usesOwnVoice_of_reaches {db : Database} {op : Op} (h : Reaches Careful (start db) s)
    (hcareful : Careful s op) : UsesOwnVoice s op := by
  have hown := allOwn_of_reaches h
  cases op with
  | promote env meetingId oldLabel trimmedName normalisedEmail => exact hown.averagesOwn hcareful
  | mergeCluster env meetingId oldLabel profileId => exact hown.averagesOwn hcareful
  | refine env meetingId =>
    exact fun installed _ hcurrent _ _ =>
      hown.current installed hcurrent meetingId (hcareful installed hcurrent)
  | _ => trivial

/-! ### Two meetings -/

/-- Models for a recording; the speaker model is not asked, since turns come with embeddings. -/
def models : Models := ⟨SpeakerSession.silent, none⟩

/-- A recording with one segment. -/
def recorded (s : DiarizerSlot) (meetingId : String) : DiarizerSlot :=
  (((s.exec (.tryInitForRecording (.ok (some models)))).exec (.setRecording true)).exec
    (.live meetingId 0 [] (some [1]))).exec (.setRecording false)

theorem Reaches.recorded {s t : DiarizerSlot} (h : Reaches Careful s t) (meetingId : String) :
    Reaches Careful s (t.recorded meetingId) := by
  refine .step _ (.step _ (.step _ (.step _ h trivial) trivial) ?_) trivial
  rintro _ ⟨⟩ _ ⟨⟩

theorem Reaches.free {s t : DiarizerSlot} (h : Reaches Careful s t) :
    Reaches (fun _ _ => True) s t := by
  induction h with
  | refl => exact .refl
  | step op _ _ ih => exact .step op ih trivial

theorem usesOwnVoice_recorded :
    UsesOwnVoice (recorded (start oneMeeting) "meeting-1")
      (.promote calm "meeting-1" "Speaker 1" "Alice" none) := by
  have hserves : ∀ installed, (recorded (start oneMeeting) "meeting-1").current = some installed →
      installed.Serves "meeting-1" := by
    rintro _ ⟨⟩ _ ⟨⟩
    rfl
  exact usesOwnVoice_of_reaches (Reaches.refl.recorded "meeting-1")
    fun installed hcurrent _ => hserves installed hcurrent

/-- A speaker of an older meeting is given the voice of the newer one. -/
theorem not_usesOwnVoice_older :
    ¬∀ (db : Database) (s : DiarizerSlot) (op : Op),
      Reaches (fun _ _ => True) (start db) s → UsesOwnVoice s op := by
  intro h
  obtain ⟨voices, hown, hvoices⟩ := h oneMeeting
    (recorded (recorded (start oneMeeting) "meeting-1") "meeting-2")
    (.promote calm "meeting-1" "Speaker 1" "Alice" none)
    ((Reaches.refl.recorded "meeting-1").recorded "meeting-2").free
  cases voices with
  | nil => cases hvoices
  | cons voice voices =>
    obtain ⟨installed, hcurrent, hzip, hmeeting⟩ := hown voice List.mem_cons_self
    have hmeetings : installed.meetings = ["meeting-2"] := by
      cases hcurrent
      rfl
    have hmem := (List.of_mem_zip hzip).2
    rw [hmeetings, hmeeting] at hmem
    exact absurd hmem (by decide)

end DiarizerSlot

end MeetilyLocal
