import MeetilyLocal.Audio.RingBuffer
import MeetilyLocal.Library.LocalAgreement

/-!
# Live previews

The embedding of the partial-decode task (`audio/transcription/partial_worker.rs`). The audio of an
utterance in progress is decoded again and again; what two decodes in a row agree on is shown as a
preview, until the transcript of the utterance replaces it.

What the engine makes of audio is given from outside, and so is the order in which a hash map is gone
through.
-/

namespace MeetilyLocal

namespace PartialWorker

/-- A snapshot of an utterance in progress (`recording_state.rs`). -/
structure PartialAudioChunk : Type where
  /-- its audio so far, at 16 kHz -/
  samples : List Float32
  /-- which stream it is from -/
  source : DeviceType
  /-- which utterance it is -/
  utteranceId : ℕ

/-- The payload of a `transcript-partial` event. -/
structure PartialUpdate : Type where
  /-- "mic" | "system" -/
  source : String
  /-- the preview; an empty one clears it -/
  text : List Char
  /-- which utterance it is -/
  utteranceId : ℕ
  deriving DecidableEq

/-- Per-source LocalAgreement stabilization state: `prev_words` and `committed`, of an utterance. -/
structure SourceState : Type where
  /-- utterance the state belongs to -/
  utteranceId : ℕ
  /-- the previous hypothesis, and the committed words -/
  words : Agreement (List Char)

/-- The state of each source. -/
abbrev States : Type := DeviceType → SourceState

/-- The default state. -/
def SourceState.default : SourceState := ⟨0, .initial⟩

/-- Sliding-window size for partial decoding. -/
def partialWindowSamples : ℕ := 6 * 16000

/-- The final-path backlog past which a partial decode is skipped. -/
def skipPartialQueueDepth : ℕ := 2

/-- The last `window` samples. -/
def slidingWindow (samples : List Float32) (window : ℕ) : List Float32 :=
  if samples.length ≤ window then samples else samples.drop (samples.length - window)

/-- `source_str` -/
def sourceStr : DeviceType → String
  | .microphone => "mic"
  | .system => "system"

/-- What the engine makes of samples. -/
abbrev Engine : Type := List Float32 → Except String (List Char)

/-! ## The code -/

/-- Decode a snapshot, and make the update to emit, if something is stable. -/
def decodeAndEmit (engine : Engine) (states : States) (source : DeviceType)
    (chunk : PartialAudioChunk) : Except String (States × Option PartialUpdate) := do
  let text ← engine (slidingWindow chunk.samples partialWindowSamples)
  let state := states source
  -- new utterance: reset stabilization
  let state := if state.utteranceId ≠ chunk.utteranceId then ⟨chunk.utteranceId, .initial⟩ else state
  let words := state.words.agree (splitWhitespace text)
  let states := Function.update states source ⟨state.utteranceId, words⟩
  if words.committed = [] then return (states, none)
  else return (states, some ⟨sourceStr source, joinWords words.committed, chunk.utteranceId⟩)

/-- The sources, in either order. -/
def sources (micFirst : Bool) : List DeviceType :=
  if micFirst then [.microphone, .system] else [.system, .microphone]

/-- What a round of the task sees. -/
structure Tick : Type where
  /-- the snapshots that are in the channel -/
  chunks : List PartialAudioChunk
  /-- the backlog of the final path -/
  queueDepth : ℕ
  /-- whether the microphone comes before the system -/
  micFirst : Bool
  /-- what the engine makes of audio -/
  engine : DeviceType → Engine

/-- The newest snapshot of a source. -/
def latest (chunks : List PartialAudioChunk) (source : DeviceType) : Option PartialAudioChunk :=
  (chunks.filter fun chunk => chunk.source = source).getLast?

/-- What the task has: the states, and the updates it has emitted. -/
abbrev Run : Type := States × List PartialUpdate

/-- The newest snapshot of a source is decoded; if that fails, nothing happens. -/
def decodeLatest (tick : Tick) (run : Run) (source : DeviceType) : Run :=
  match latest tick.chunks source with
  | none => run
  | some chunk =>
    match decodeAndEmit (tick.engine source) run.1 source chunk with
    | .error _ => run
    | .ok (states, update) => (states, run.2 ++ update.toList)

/-- A round of the task. -/
def runTick (run : Run) (tick : Tick) : Run :=
  if skipPartialQueueDepth < tick.queueDepth then run
  else (sources tick.micFirst).foldl (decodeLatest tick) run

/-- The updates that clear what is shown when the channel closes. -/
def clearAll (micFirst : Bool) (states : States) : List PartialUpdate :=
  ((sources micFirst).filter fun source => (states source).words.committed ≠ []).map fun source =>
    ⟨sourceStr source, [], (states source).utteranceId⟩

/-- The updates of the task, from its start until the channel is closed. -/
def task (ticks : List Tick) (micFirst : Bool) : List PartialUpdate :=
  let run := ticks.foldl runTick (fun _ => .default, [])
  run.2 ++ clearAll micFirst run.1

/-! ## What is heard of one source -/

/-- The utterance and the words that a round hears of a source, if it does. -/
def heard (tick : Tick) (source : DeviceType) : Option (ℕ × List (List Char)) :=
  if skipPartialQueueDepth < tick.queueDepth then none
  else (latest tick.chunks source).bind fun chunk =>
    (tick.engine source (slidingWindow chunk.samples partialWindowSamples)).toOption.map
      fun text => (chunk.utteranceId, splitWhitespace text)

/-- The state of a source when words of an utterance are heard. -/
def SourceState.hear (state : SourceState) (words : ℕ × List (List Char)) : SourceState :=
  ⟨words.1, (if state.utteranceId = words.1 then state.words else .initial).agree words.2⟩

/-- The update that a state is worth. -/
def SourceState.update (state : SourceState) (source : DeviceType) : Option PartialUpdate :=
  if state.words.committed = [] then none
  else some ⟨sourceStr source, joinWords state.words.committed, state.utteranceId⟩

/-- Words of an utterance are heard of a source. -/
def hear (source : DeviceType) (run : SourceState × List PartialUpdate)
    (words : ℕ × List (List Char)) : SourceState × List PartialUpdate :=
  (run.1.hear words, run.2 ++ ((run.1.hear words).update source).toList)

/-- What a run is for one source: its state, and the updates about it. -/
def view (source : DeviceType) (run : Run) : SourceState × List PartialUpdate :=
  (run.1 source, run.2.filter fun update => update.source = sourceStr source)

theorem sourceStr_injective : Function.Injective sourceStr := by
  intro a b h
  cases a <;> cases b <;> first | rfl | exact absurd h (by decide)

/-- The update of a state is of its source and its utterance. -/
theorem of_mem_update {state : SourceState} {source : DeviceType} {update : PartialUpdate}
    (h : update ∈ (state.update source).toList) :
    update.source = sourceStr source ∧ update.utteranceId = state.utteranceId := by
  rw [SourceState.update] at h
  split at h
  · cases h
  · obtain rfl := by simpa using h
    exact ⟨rfl, rfl⟩

/-- **A decode** that succeeds is heard. -/
theorem decodeAndEmit_eq (engine : Engine) (states : States) (source : DeviceType)
    (chunk : PartialAudioChunk) :
    decodeAndEmit engine states source chunk =
      (engine (slidingWindow chunk.samples partialWindowSamples)).map fun text =>
        let state := (states source).hear (chunk.utteranceId, splitWhitespace text)
        (Function.update states source state, state.update source) := by
  rw [decodeAndEmit]
  cases engine (slidingWindow chunk.samples partialWindowSamples) with
  | error message => rfl
  | ok text =>
    by_cases hid : (states source).utteranceId = chunk.utteranceId
    · simp only [SourceState.hear, SourceState.update, hid, ne_eq, not_true_eq_false, if_false,
        if_true, Except.map, Except.bind, bind, pure, Except.pure]
      split <;> rfl
    · simp only [SourceState.hear, SourceState.update, hid, ne_eq, not_false_eq_true, if_false,
        if_true, Except.map, Except.bind, bind, pure, Except.pure]
      split <;> rfl

/-- A run after a source was heard. -/
theorem view_update {source : DeviceType} {run : Run} (words : ℕ × List (List Char)) :
    view source (Function.update run.1 source ((run.1 source).hear words),
      run.2 ++ (((run.1 source).hear words).update source).toList) =
      hear source (view source run) words := by
  have hall : ((((run.1 source).hear words).update source).toList.filter
      fun update => update.source = sourceStr source) =
      (((run.1 source).hear words).update source).toList :=
    List.filter_eq_self.mpr fun update hupdate => by simp [(of_mem_update hupdate).1]
  simp only [view, hear, Function.update_self, List.filter_append, hall]

theorem view_update_ne {source other : DeviceType} (hne : other ≠ source) {run : Run}
    (words : ℕ × List (List Char)) :
    view source (Function.update run.1 other ((run.1 other).hear words),
      run.2 ++ (((run.1 other).hear words).update other).toList) = view source run := by
  have hnone : ((((run.1 other).hear words).update other).toList.filter
      fun update => update.source = sourceStr source) = [] :=
    List.filter_eq_nil_iff.mpr fun update hupdate => by
      simp [(of_mem_update hupdate).1, sourceStr_injective.ne hne]
  simp only [view, Function.update_of_ne hne.symm, List.filter_append, hnone, List.append_nil]

/-- What the newest snapshot of a source does to a run. -/
theorem decodeLatest_eq {tick : Tick} (hqueue : ¬skipPartialQueueDepth < tick.queueDepth)
    (run : Run) (source : DeviceType) :
    decodeLatest tick run source =
      match heard tick source with
      | none => run
      | some words => (Function.update run.1 source ((run.1 source).hear words),
          run.2 ++ (((run.1 source).hear words).update source).toList) := by
  rw [heard, if_neg hqueue, decodeLatest]
  cases latest tick.chunks source with
  | none => rfl
  | some chunk =>
    simp only [decodeAndEmit_eq, Option.bind_some]
    cases tick.engine source (slidingWindow chunk.samples partialWindowSamples) <;> rfl

/-- **A round** is for a source what it hears of it. -/
theorem view_runTick (source : DeviceType) (run : Run) (tick : Tick) :
    view source (runTick run tick) =
      (heard tick source).elim (view source run) (hear source (view source run)) := by
  rw [runTick]
  split
  next hqueue =>
    rw [heard, if_pos hqueue]
    rfl
  next hqueue =>
    have hself : ∀ run : Run, view source (decodeLatest tick run source) =
        (heard tick source).elim (view source run) (hear source (view source run)) := by
      intro run
      rw [decodeLatest_eq hqueue]
      cases heard tick source with
      | none => rfl
      | some words => exact view_update words
    have hother : ∀ (run : Run) (other : DeviceType), other ≠ source →
        view source (decodeLatest tick run other) = view source run := by
      intro run other hne
      rw [decodeLatest_eq hqueue]
      cases heard tick other with
      | none => rfl
      | some words => exact view_update_ne hne words
    -- the other source comes before or after
    cases tick.micFirst <;> cases source <;>
      simp [sources, hself, hother]

/-- What is heard of a source in a run. -/
def heardOf (source : DeviceType) (ticks : List Tick) : List (ℕ × List (List Char)) :=
  ticks.filterMap fun tick => heard tick source

theorem view_foldl_runTick (source : DeviceType) (ticks : List Tick) (run : Run) :
    view source (ticks.foldl runTick run) =
      (heardOf source ticks).foldl (hear source) (view source run) := by
  induction ticks generalizing run with
  | nil => rfl
  | cons tick ticks ih =>
    rw [List.foldl_cons, ih, view_runTick]
    simp only [heardOf, List.filterMap_cons]
    cases heard tick source <;> rfl

/-! ## What is heard of one utterance -/

/-- The hypotheses for an utterance among what is heard. -/
def hypothesesOf (utteranceId : ℕ) (words : List (ℕ × List (List Char))) :
    List (List (List Char)) :=
  (words.filter fun heard => heard.1 = utteranceId).map Prod.snd

/-- What is heard is heard of one utterance after the other. -/
def InOrder (words : List (ℕ × List (List Char))) : Prop :=
  words.Pairwise fun a b => a.1 ≤ b.1

/-- **What a source's state is worth**: the words are those of the current utterance alone, and the
updates about an utterance are its previews. -/
structure Listened (source : DeviceType) (words : List (ℕ × List (List Char)))
    (run : SourceState × List PartialUpdate) : Prop where
  /-- no later utterance was heard of -/
  le : ∀ heard ∈ words, heard.1 ≤ run.1.utteranceId
  /-- the current utterance was heard of, unless nothing was -/
  current : run.1.utteranceId = 0 ∨ ∃ heard ∈ words, heard.1 = run.1.utteranceId
  /-- the words are those of the current utterance -/
  words_eq : run.1.words = .after (hypothesesOf run.1.utteranceId words)
  /-- the updates about an utterance -/
  updates : ∀ id, ((run.2.filter fun update => update.utteranceId = id).map PartialUpdate.text) =
    (Agreement.previews (hypothesesOf id words)).map joinWords

theorem hypothesesOf_concat_self (words : List (ℕ × List (List Char)))
    (next : ℕ × List (List Char)) :
    hypothesesOf next.1 (words ++ [next]) = hypothesesOf next.1 words ++ [next.2] := by
  simp [hypothesesOf]

theorem hypothesesOf_concat_ne {utteranceId : ℕ} {next : ℕ × List (List Char)}
    (h : next.1 ≠ utteranceId) (words : List (ℕ × List (List Char))) :
    hypothesesOf utteranceId (words ++ [next]) = hypothesesOf utteranceId words := by
  simp [hypothesesOf, h]

theorem hypothesesOf_eq_nil {utteranceId : ℕ} {words : List (ℕ × List (List Char))}
    (h : ∀ heard ∈ words, heard.1 < utteranceId) : hypothesesOf utteranceId words = [] := by
  rw [hypothesesOf, List.map_eq_nil_iff, List.filter_eq_nil_iff]
  intro heard hheard
  simp [(h heard hheard).ne]

theorem map_text_update (state : SourceState) (source : DeviceType) :
    (state.update source).toList.map PartialUpdate.text = state.words.shown.map joinWords := by
  rw [SourceState.update, Agreement.shown]
  split <;> rfl

/-- The words of the state that hears are those of its utterance. -/
theorem Listened.hear_words {source : DeviceType} {words : List (ℕ × List (List Char))}
    {run : SourceState × List PartialUpdate} (h : Listened source words run)
    {next : ℕ × List (List Char)} (hnext : run.1.utteranceId ≤ next.1) :
    (run.1.hear next).words = .after (hypothesesOf next.1 (words ++ [next])) := by
  rw [hypothesesOf_concat_self, Agreement.after_concat, SourceState.hear]
  split
  next hsame => rw [h.words_eq, hsame]
  next hne =>
    -- a new utterance: nothing was heard of it before
    rw [hypothesesOf_eq_nil fun heard hheard => (h.le heard hheard).trans_lt
      (lt_of_le_of_ne hnext hne), Agreement.after_nil]

theorem Listened.hear {source : DeviceType} {words : List (ℕ × List (List Char))}
    {run : SourceState × List PartialUpdate} (h : Listened source words run)
    {next : ℕ × List (List Char)} (hnext : run.1.utteranceId ≤ next.1) :
    Listened source (words ++ [next]) (hear source run next) where
  le := by
    intro heard hheard
    rcases List.mem_append.mp hheard with hmem | hmem
    · exact (h.le heard hmem).trans hnext
    · rw [List.mem_singleton.mp hmem]
      exact le_rfl
  current := .inr ⟨next, by simp, rfl⟩
  words_eq := h.hear_words hnext
  updates := by
    intro id
    rw [PartialWorker.hear, List.filter_append, List.map_append, h.updates id]
    rcases eq_or_ne next.1 id with rfl | hne
    · have hall : (((run.1.hear next).update source).toList.filter
          fun update => update.utteranceId = next.1) =
          ((run.1.hear next).update source).toList :=
        List.filter_eq_self.mpr fun update hupdate => by
          simp [(of_mem_update hupdate).2, SourceState.hear]
      rw [hall, map_text_update, h.hear_words hnext, hypothesesOf_concat_self,
        Agreement.previews_concat, List.map_append]
    · have hnone : (((run.1.hear next).update source).toList.filter
          fun update => update.utteranceId = id) = [] :=
        List.filter_eq_nil_iff.mpr fun update hupdate => by
          simp [(of_mem_update hupdate).2, SourceState.hear, hne]
      rw [hnone, hypothesesOf_concat_ne hne, List.map_nil, List.append_nil]

theorem listened_foldl (source : DeviceType) {words : List (ℕ × List (List Char))}
    (h : InOrder words) : Listened source words (words.foldl (hear source) (.default, [])) := by
  induction words using List.reverseRecOn with
  | nil => exact ⟨by simp, .inl rfl, rfl, fun id => rfl⟩
  | append_singleton words next ih =>
    obtain ⟨hwords, -, hnext⟩ := List.pairwise_append.mp h
    have hlistened := ih hwords
    rw [List.foldl_append, List.foldl_cons, List.foldl_nil]
    refine hlistened.hear ?_
    rcases hlistened.current with hzero | ⟨heard, hheard, hid⟩
    · omega
    · rw [← hid]
      exact hnext heard hheard next (by simp)

/-! ## Previews -/

/-- The snapshots of a source come one utterance after the other, as the pipeline counts them. -/
def UtterancesInOrder (ticks : List Tick) : Prop :=
  ∀ source, (ticks.flatMap fun tick => tick.chunks.filter fun chunk => chunk.source = source).Pairwise
    fun a b => a.utteranceId ≤ b.utteranceId

theorem exists_chunk_of_heard {tick : Tick} {source : DeviceType} {words : ℕ × List (List Char)}
    (h : heard tick source = some words) :
    ∃ chunk ∈ tick.chunks.filter fun chunk => chunk.source = source,
      chunk.utteranceId = words.1 := by
  rw [heard] at h
  split at h
  · cases h
  · obtain ⟨chunk, hchunk, hwords⟩ := Option.bind_eq_some_iff.mp h
    obtain ⟨text, -, rfl⟩ := Option.map_eq_some_iff.mp hwords
    exact ⟨chunk, List.mem_of_getLast? hchunk, rfl⟩

theorem UtterancesInOrder.heardOf {ticks : List Tick} (h : UtterancesInOrder ticks)
    (source : DeviceType) : InOrder (heardOf source ticks) := by
  obtain ⟨-, hticks⟩ := List.pairwise_flatMap.mp (h source)
  refine List.pairwise_filterMap.mpr (hticks.imp fun {a b} hab words hwords words' hwords' => ?_)
  obtain ⟨chunk, hchunk, hid⟩ := exists_chunk_of_heard hwords
  obtain ⟨chunk', hchunk', hid'⟩ := exists_chunk_of_heard hwords'
  rw [← hid, ← hid']
  exact hab chunk hchunk chunk' hchunk'

/-- The hypotheses for an utterance in a run of the task. -/
def hypotheses (ticks : List Tick) (source : DeviceType) (utteranceId : ℕ) :
    List (List (List Char)) :=
  hypothesesOf utteranceId (heardOf source ticks)

/-- The texts that the updates show for an utterance; one that clears it is none. -/
def textsOf (updates : List PartialUpdate) (source : DeviceType) (utteranceId : ℕ) :
    List (List Char) :=
  (updates.filter fun update => update.source = sourceStr source ∧
    update.utteranceId = utteranceId ∧ update.text ≠ []).map PartialUpdate.text

/-- A text has the words of another one, and maybe more after them. -/
def Extends (text text' : List Char) : Prop := splitWhitespace text <+: splitWhitespace text'

theorem isWord_of_mem_hypotheses {ticks : List Tick} {source : DeviceType} {utteranceId : ℕ}
    {hypothesis : List (List Char)} (h : hypothesis ∈ hypotheses ticks source utteranceId) :
    ∀ word ∈ hypothesis, IsWord word := by
  intro word hword
  obtain ⟨words, hwords, rfl⟩ := List.mem_map.mp h
  obtain ⟨tick, -, hheard⟩ := List.mem_filterMap.mp (List.mem_of_mem_filter hwords)
  rw [heard] at hheard
  split at hheard
  · cases hheard
  · obtain ⟨chunk, -, hchunk⟩ := Option.bind_eq_some_iff.mp hheard
    obtain ⟨text, -, rfl⟩ := Option.map_eq_some_iff.mp hchunk
    exact isWord_of_mem hword

theorem isWord_of_mem_previews {ticks : List Tick} {source : DeviceType} {utteranceId : ℕ}
    {preview : List (List Char)}
    (h : preview ∈ Agreement.previews (hypotheses ticks source utteranceId)) :
    preview ≠ [] ∧ ∀ word ∈ preview, IsWord word := by
  obtain ⟨hne, hwords⟩ := Agreement.mem_of_mem_previews h
  refine ⟨hne, fun word hword => ?_⟩
  obtain ⟨hypothesis, hmem, hin⟩ := hwords word hword
  exact isWord_of_mem_hypotheses hmem word hin

/-- **What the task shows for an utterance** are the previews of its hypotheses. -/
theorem textsOf_task {ticks : List Tick} (h : UtterancesInOrder ticks) (micFirst : Bool)
    (source : DeviceType) (utteranceId : ℕ) :
    textsOf (task ticks micFirst) source utteranceId =
      (Agreement.previews (hypotheses ticks source utteranceId)).map joinWords := by
  have hview := view_foldl_runTick source ticks (fun _ => .default, [])
  have hupdates := (listened_foldl source (h.heardOf source)).updates utteranceId
  rw [← show view source (ticks.foldl runTick (fun _ => .default, [])) =
    (heardOf source ticks).foldl (hear source) (.default, []) from hview] at hupdates
  have hclear : ∀ states, (clearAll micFirst states).filter (fun update =>
      update.source = sourceStr source ∧ update.utteranceId = utteranceId ∧ update.text ≠ []) =
      [] := by
    intro states
    refine List.filter_eq_nil_iff.mpr fun update hupdate => ?_
    obtain ⟨other, -, rfl⟩ := List.mem_map.mp hupdate
    simp
  have hsplit : ∀ updates : List PartialUpdate, updates.filter (fun update =>
      update.source = sourceStr source ∧ update.utteranceId = utteranceId ∧ update.text ≠ []) =
      ((updates.filter fun update => update.source = sourceStr source).filter
        fun update => update.utteranceId = utteranceId).filter fun update => update.text ≠ [] := by
    intro updates
    rw [List.filter_filter, List.filter_filter]
    refine List.filter_congr fun update _ => ?_
    simp [Bool.and_comm, Bool.and_assoc]
  have hmap : ∀ updates : List PartialUpdate,
      (updates.filter fun update => update.text ≠ []).map PartialUpdate.text =
        (updates.map PartialUpdate.text).filter (· ≠ []) := by
    intro updates
    rw [List.filter_map]
    rfl
  rw [textsOf, task, List.filter_append, hclear, List.append_nil, hsplit, hmap]
  rw [view] at hupdates
  rw [hupdates, hypotheses]
  refine List.filter_eq_self.mpr fun text htext => ?_
  obtain ⟨preview, hpreview, rfl⟩ := List.mem_map.mp htext
  obtain ⟨hne, hwords⟩ := isWord_of_mem_previews hpreview
  simpa using joinWords_ne_nil hne hwords

/-- **Live previews grow at their end** if and only if the hypotheses are steady. Over any run of the
task whose utterances are in order, each text shown for an utterance has the words of every earlier
one first, exactly if this is so: whenever two hypotheses in a row agree on more words than any two
before them, the second one starts with what each two that did so before agreed on. -/
theorem texts_extend_iff {ticks : List Tick} (h : UtterancesInOrder ticks) (micFirst : Bool)
    (source : DeviceType) (utteranceId : ℕ) :
    (textsOf (task ticks micFirst) source utteranceId).Pairwise Extends ↔
      Agreement.Steady (hypotheses ticks source utteranceId) := by
  rw [textsOf_task h, List.pairwise_map, ← Agreement.previews_pairwise_iff]
  have hextends : ∀ a ∈ Agreement.previews (hypotheses ticks source utteranceId),
      ∀ b ∈ Agreement.previews (hypotheses ticks source utteranceId),
      (Extends (joinWords a) (joinWords b) ↔ a <+: b) := by
    intro a ha b hb
    rw [Extends, splitWhitespace_joinWords (isWord_of_mem_previews ha).2,
      splitWhitespace_joinWords (isWord_of_mem_previews hb).2]
  exact ⟨fun hpairwise => hpairwise.imp_of_mem fun ha hb => (hextends _ ha _ hb).mp,
    fun hpairwise => hpairwise.imp_of_mem fun ha hb => (hextends _ ha _ hb).mpr⟩

/-- A round in which the microphone's first utterance is decoded as the text. -/
def said (text : String) : Tick :=
  ⟨[⟨[], .microphone, 1⟩], 0, true, fun _ _ => .ok text.toList⟩

theorem utterancesInOrder_said (texts : List String) : UtterancesInOrder (texts.map said) := by
  intro source
  rw [List.flatMap_map]
  have hone : ∀ chunk ∈ texts.flatMap fun text =>
      (said text).chunks.filter fun chunk => chunk.source = source, chunk.utteranceId = 1 := by
    intro chunk hchunk
    obtain ⟨text, -, hmem⟩ := List.mem_flatMap.mp hchunk
    rw [List.mem_singleton.mp (List.mem_of_mem_filter hmem)]
  exact List.pairwise_of_forall_mem_list fun a ha b hb => by
    rw [hone a ha, hone b hb]

/-- Previews of an utterance whose hypotheses grow. -/
theorem texts_extend_iff_growing :
    (textsOf (task (["let us", "let us start"].map said) true) .microphone 1).Pairwise Extends ↔
      Agreement.Steady (hypotheses (["let us", "let us start"].map said) .microphone 1) :=
  texts_extend_iff (utterancesInOrder_said _) true .microphone 1

/-- **A preview that is replaced.** Once the beginning of the utterance has left the window, two
hypotheses agree on more words, and on other ones. -/
theorem not_texts_extend :
    UtterancesInOrder (["well", "well", "see you", "see you"].map said) ∧
      textsOf (task (["well", "well", "see you", "see you"].map said) true) .microphone 1 =
        ["well".toList, "well".toList, "see you".toList] ∧
      ¬Extends "well".toList "see you".toList := by
  refine ⟨utterancesInOrder_said _, ?_, ?_⟩
  · decide +kernel
  · unfold Extends
    decide +kernel

end PartialWorker

end MeetilyLocal
