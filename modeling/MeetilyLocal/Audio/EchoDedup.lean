import Mathlib.Algebra.Order.Ring.Unbundled.Rat
import Mathlib.Tactic.Linarith
import Mathlib.Tactic.NormNum
import MeetilyLocal.Audio.RingBuffer
import MeetilyLocal.Library.RecentItems
import MeetilyLocal.Library.Words

/-!
# Cross-source echo suppression

The embedding of `EchoDedup` (`audio/transcription/echo_dedup.rs`): what was said by a remote
participant is heard twice, from the system and through the room by the microphone, and the copy of
the microphone is dropped when it matches a segment of the system that is still in a small buffer.

Times are of a number type that is a parameter, `f64` in the code; a similarity is always an `f64`.
The Unicode tables behind `to_lowercase` and `is_alphanumeric` are given from outside.

In exact arithmetic the buffer forgets nothing that could still match, as long as segments do not
reach too far back and there are not too many of them near each one (`check_iff_echo`). A bound on
how many there are within any thirty seconds is not enough (`not_check_iff_echo`).
-/

namespace MeetilyLocal

namespace EchoDedup

/-- What the standard library knows about characters. -/
structure CharTables : Type where
  /-- `str::to_lowercase` -/
  toLowercase : List Char → List Char
  /-- `char::is_alphanumeric` -/
  isAlphanumeric : Char → Bool

/-! ## Similarity of texts -/

/-- Lowercase, strip punctuation and collapse runs of whitespace. -/
def normalizeForComparison (tables : CharTables) (text : List Char) : List Char :=
  joinWords (splitWhitespace
    ((tables.toLowercase text).map fun c => if tables.isAlphanumeric c then c else ' '))

/-- The entries of a row of the table after its first one: of what is to the left of the next entry,
the row before from above that on, and the characters that are left. -/
def levenshteinEntries (ca : Char) : ℕ → List ℕ → List Char → List ℕ
  | left, diagonal :: above :: row, cb :: b =>
    let cost := if ca = cb then 0 else 1
    let entry := min (min (above + 1) (left + 1)) (diagonal + cost)
    entry :: levenshteinEntries ca entry (above :: row) b
  | _, _, _ => []

/-- The row of the `i`-th character, after the row before. -/
def levenshteinRow (b : List Char) (i : ℕ) (ca : Char) (row : List ℕ) : List ℕ :=
  (i + 1) :: levenshteinEntries ca (i + 1) row b

/-- Levenshtein edit distance, with two rows of the table at a time. -/
def levenshteinDistance (a b : List Char) : ℕ :=
  if a = [] then b.length
  else if b = [] then a.length
  else (a.zipIdx.foldl (fun row ci => levenshteinRow b ci.2 ci.1 row)
    (List.range (b.length + 1))).getD b.length 0

example : levenshteinDistance "kitten".toList "sitting".toList = 3 := by decide

/-- Levenshtein-ratio similarity: `1 - distance / max_len`. -/
def similarityRatio (a b : List Char) : Float :=
  let maxLen := max a.length b.length
  if maxLen = 0 then 1.0
  else 1.0 - Float.ofNat (levenshteinDistance a b) / Float.ofNat maxLen

/-- Word count of normalized text. -/
def wordCount (text : List Char) : ℕ := (splitWhitespace text).length

/-! ## Segments and calls -/

section Calls

variable {T : Type}

/-- A previously emitted segment. -/
structure AcceptedSegment (T : Type) : Type where
  /-- the stream it is from -/
  source : DeviceType
  /-- its text, normalized -/
  textNormalized : List Char
  /-- where it starts, in seconds -/
  audioStartTime : T
  /-- where it ends -/
  audioEndTime : T

/-- A segment, as `check` and `record` are given it. -/
structure Segment (T : Type) : Type where
  /-- the stream it is from -/
  source : DeviceType
  /-- its text -/
  text : List Char
  /-- where it starts, in seconds -/
  audioStartTime : T
  /-- where it ends -/
  audioEndTime : T

/-- The segment with its text normalized. -/
def Segment.accepted (tables : CharTables) (segment : Segment T) : AcceptedSegment T :=
  ⟨segment.source, normalizeForComparison tables segment.text, segment.audioStartTime,
    segment.audioEndTime⟩

/-- A call. -/
inductive Call (T : Type) : Type where
  /-- a candidate is checked -/
  | check (segment : Segment T) : Call T
  /-- a segment is recorded -/
  | record (segment : Segment T) : Call T

/-- The segment of a call. -/
def Call.segment : Call T → Segment T
  | .check segment => segment
  | .record segment => segment

variable {tables : CharTables}

/-- The segment that a call records, if it has a text. -/
def Call.recorded? (tables : CharTables) : Call T → Option (AcceptedSegment T)
  | .check _ => none
  | .record segment =>
    if (segment.accepted tables).textNormalized = [] then none else some (segment.accepted tables)

/-- The segments with a text that calls record. -/
def recorded (tables : CharTables) (calls : List (Call T)) : List (AcceptedSegment T) :=
  calls.filterMap (Call.recorded? tables)

theorem Call.recorded?_eq_some {call : Call T} {accepted : AcceptedSegment T} :
    call.recorded? tables = some accepted ↔ accepted.textNormalized ≠ [] ∧
      ∃ segment, call = .record segment ∧ segment.accepted tables = accepted := by
  cases call with
  | check segment => simp [recorded?]
  | record segment =>
    rw [recorded?]
    split
    · next hnil =>
      refine ⟨fun h => absurd h (by simp), ?_⟩
      rintro ⟨hne, _, ⟨rfl⟩, rfl⟩
      exact absurd hnil hne
    · next hne =>
      refine ⟨?_, ?_⟩
      · rintro ⟨rfl⟩
        exact ⟨hne, segment, rfl, rfl⟩
      · rintro ⟨-, _, ⟨rfl⟩, rfl⟩
        rfl

/-- The operation of a call, if it does one. -/
def Call.op? (tables : CharTables) : Call T → Option (Recent.Op (AcceptedSegment T) T)
  | .check segment => some (.prune segment.audioStartTime)
  | .record segment => (Call.recorded? tables (.record segment)).map .push

/-- The operations of calls. -/
def ops (tables : CharTables) (calls : List (Call T)) : List (Recent.Op (AcceptedSegment T) T) :=
  calls.filterMap (Call.op? tables)

theorem pushed_ops (calls : List (Call T)) :
    Recent.pushed (ops tables calls) = recorded tables calls := by
  rw [Recent.pushed, ops, List.filterMap_filterMap, recorded]
  refine List.filterMap_congr fun call _ => ?_
  cases call with
  | check segment => rfl
  | record segment =>
    rw [Call.op?]
    cases Call.recorded? tables (.record segment) <;> rfl

theorem prune_mem_ops {calls : List (Call T)} {now : T} (h : .prune now ∈ ops tables calls) :
    ∃ call ∈ calls, call.segment.audioStartTime = now := by
  obtain ⟨call, hcall, hop⟩ := List.mem_filterMap.mp h
  cases call with
  | check segment =>
    obtain ⟨rfl⟩ : segment.audioStartTime = now := by simpa [Call.op?] using hop
    exact ⟨_, hcall, rfl⟩
  | record segment =>
    obtain ⟨_, -, hpush⟩ := Option.map_eq_some_iff.mp hop
    exact absurd hpush (by simp)

end Calls

/-! ## The predicate -/

/-- Similarity above which two texts are the same utterance. -/
def similarityThreshold : Float := 0.85

/-- Minimum word count of an eligible text. -/
def minMatchWordCount : ℕ := 3

/-- Texts of at most so many words need a tighter similarity. -/
def shortTextWordCountMax : ℕ := 5

/-- The tighter similarity. -/
def shortTextSimilarityThreshold : Float := 0.95

/-- Hard cap on the number of segments that are retained. -/
def maxBufferLen : ℕ := 12

section Code

variable {T : Type} [Add T] [Sub T] [LE T] [LT T] [DecidableLE T] [DecidableLT T] [OfScientific T]

/-- How far apart two segments may be, in seconds. -/
def overlapToleranceSecs : T := 1.5

/-- Minimum duration of an eligible segment. -/
def minMatchDurationSecs : T := 1.0

/-- How old a segment may be. -/
def maxBufferAgeSecs : T := 30.0

/-- Whether two intervals overlap once each is allowed some slack. -/
def intervalsOverlap (aStart aEnd bStart bEnd tolerance : T) : Bool :=
  aStart ≤ bEnd + tolerance && bStart ≤ aEnd + tolerance

/-- Do segments `a` and `b` constitute a cross-source echo pair? -/
def isCrossSourceMatch (a b : AcceptedSegment T) : Bool :=
  if a.source = b.source then false
  else if !intervalsOverlap a.audioStartTime a.audioEndTime b.audioStartTime b.audioEndTime
      overlapToleranceSecs then false
  else
    let wordCountA := wordCount a.textNormalized
    let wordCountB := wordCount b.textNormalized
    let durationA := a.audioEndTime - a.audioStartTime
    let durationB := b.audioEndTime - b.audioStartTime
    if wordCountA < minMatchWordCount || wordCountB < minMatchWordCount
        || durationA < minMatchDurationSecs || durationB < minMatchDurationSecs then false
    else
      let threshold := if wordCountA ≤ shortTextWordCountMax || wordCountB ≤ shortTextWordCountMax
        then shortTextSimilarityThreshold else similarityThreshold
      decide (threshold ≤ similarityRatio a.textNormalized b.textNormalized)

/-! ## The buffer -/

/-- Outcome of checking a candidate. -/
inductive EchoDecision : Type where
  /-- emit normally -/
  | accept : EchoDecision
  /-- suppress: the microphone has heard the system -/
  | dropAsMicEcho : EchoDecision
  deriving DecidableEq

/-- A segment of the buffer is too old for one that starts now. -/
def tooOld (newestStartTime : T) (segment : AcceptedSegment T) : Bool :=
  maxBufferAgeSecs < newestStartTime - segment.audioEndTime

/-- The rolling buffer of recently accepted segments. -/
abbrev Buffer (T : Type) : Type := List (AcceptedSegment T)

/-- Drop buffered segments that are too old. -/
def prune (buffer : Buffer T) (newestStartTime : T) : Buffer T :=
  Recent.prune tooOld buffer newestStartTime

/-- Decide whether a candidate is an echo of an accepted segment from the other source. -/
def check (tables : CharTables) (buffer : Buffer T) (segment : Segment T) :
    Buffer T × EchoDecision :=
  let buffer := prune buffer segment.audioStartTime
  let candidate := segment.accepted tables
  if candidate.textNormalized = [] then (buffer, .accept)
  else
    match segment.source, buffer.find? (isCrossSourceMatch candidate) with
    | .microphone, some _ => (buffer, .dropAsMicEcho)
    | .system, some _ => (buffer, .accept)
    | _, none => (buffer, .accept)

/-- Record an accepted segment. -/
def record (tables : CharTables) (buffer : Buffer T) (segment : Segment T) : Buffer T :=
  if (segment.accepted tables).textNormalized = [] then buffer
  else Recent.push maxBufferLen buffer (segment.accepted tables)

/-! ## Runs -/

/-- The buffer after a call. -/
def Call.step (tables : CharTables) (buffer : Buffer T) : Call T → Buffer T
  | .check segment => (EchoDedup.check tables buffer segment).1
  | .record segment => EchoDedup.record tables buffer segment

/-- The buffer after calls. -/
def after (tables : CharTables) (calls : List (Call T)) : Buffer T :=
  calls.foldl (Call.step tables) []

/-- What is decided about a segment after calls. -/
def decision (tables : CharTables) (calls : List (Call T)) (segment : Segment T) : EchoDecision :=
  (check tables (after tables calls) segment).2

/-! ## What a call does -/

variable {tables : CharTables}

theorem wordCount_nil : wordCount [] = 0 := rfl

/-- An empty text matches nothing. -/
theorem isCrossSourceMatch_of_eq_nil {a b : AcceptedSegment T}
    (h : a.textNormalized = [] ∨ b.textNormalized = []) : isCrossSourceMatch a b = false := by
  rcases h with h | h <;> simp [isCrossSourceMatch, h, wordCount_nil, minMatchWordCount]

/-- What matches is of the other source, and starts no later than the tolerance after the other. -/
theorem of_isCrossSourceMatch {a b : AcceptedSegment T} (h : isCrossSourceMatch a b = true) :
    a.source ≠ b.source ∧ a.audioStartTime ≤ b.audioEndTime + overlapToleranceSecs := by
  rw [isCrossSourceMatch] at h
  split at h
  · exact absurd h (by simp)
  · next hsource =>
    split at h
    · exact absurd h (by simp)
    · next hoverlap =>
      rw [intervalsOverlap] at hoverlap
      simp only [Bool.not_eq_true', Bool.not_eq_false, Bool.and_eq_true,
        decide_eq_true_eq] at hoverlap
      exact ⟨hsource, hoverlap.1⟩

@[simp]
theorem check_fst (buffer : Buffer T) (segment : Segment T) :
    (check tables buffer segment).1 = prune buffer segment.audioStartTime := by
  rw [check]
  split
  · rfl
  · split <;> rfl

/-- **What is dropped**: what is of the microphone and matches a segment of the buffer. -/
theorem check_snd_eq_dropAsMicEcho_iff (buffer : Buffer T) (segment : Segment T) :
    (check tables buffer segment).2 = .dropAsMicEcho ↔ segment.source = .microphone ∧
      ∃ other ∈ prune buffer segment.audioStartTime,
        isCrossSourceMatch (segment.accepted tables) other = true := by
  rw [check]
  split
  · next hnil => simp [isCrossSourceMatch_of_eq_nil (.inl hnil)]
  · cases hfind : (prune buffer segment.audioStartTime).find?
      (isCrossSourceMatch (segment.accepted tables)) with
    | none =>
      have hnone := List.find?_eq_none.mp hfind
      cases segment.source with
      | microphone => simpa using hnone
      | system => simp
    | some other =>
      have hother : ∃ other ∈ prune buffer segment.audioStartTime,
          isCrossSourceMatch (segment.accepted tables) other = true :=
        ⟨other, List.mem_of_find?_eq_some hfind, List.find?_some hfind⟩
      cases segment.source with
      | microphone => simpa using hother
      | system => simp

/-- No segment of the system is ever dropped. -/
theorem check_of_system (buffer : Buffer T) {segment : Segment T} (h : segment.source = .system) :
    (check tables buffer segment).2 = .accept := by
  cases hdecision : (check tables buffer segment).2 with
  | accept => rfl
  | dropAsMicEcho =>
    rw [check_snd_eq_dropAsMicEcho_iff, h] at hdecision
    exact absurd hdecision.1 (by simp)

/-! ## The calls as operations on a buffer -/

theorem run_ops (calls : List (Call T)) :
    Recent.run maxBufferLen tooOld (ops tables calls) = after tables calls := by
  induction calls using List.reverseRecOn with
  | nil => rfl
  | append_singleton calls call ih =>
    rw [after, List.foldl_append, List.foldl_cons, List.foldl_nil, ← after, ← ih, ops,
      List.filterMap_append, ← ops]
    cases call with
    | check segment =>
      rw [Call.step, check_fst, prune, ← Recent.run_prune]
      rfl
    | record segment =>
      rw [Call.step, record, List.filterMap_cons, List.filterMap_nil, Call.op?, Call.recorded?]
      by_cases hnil : (segment.accepted tables).textNormalized = []
      · simp [hnil]
      · simp [hnil]

/-- What is in the buffer was recorded. -/
theorem exists_record_of_mem_after {calls : List (Call T)} {accepted : AcceptedSegment T}
    (h : accepted ∈ after tables calls) :
    ∃ segment, .record segment ∈ calls ∧ segment.accepted tables = accepted := by
  obtain ⟨n, hgone⟩ := Recent.exists_goneUpTo maxBufferLen tooOld
    (ops tables calls)
  rw [← run_ops, hgone.run_eq, pushed_ops] at h
  obtain ⟨call, hcall, hrecorded⟩ := List.mem_filterMap.mp (List.mem_of_mem_drop h)
  obtain ⟨-, segment, rfl, haccepted⟩ := Call.recorded?_eq_some.mp hrecorded
  exact ⟨segment, hcall, haccepted⟩

end Code

/-! ## In exact arithmetic -/

variable {tables : CharTables}

/-- No segment starts more than 25 seconds before one of an earlier call. -/
def ReachesBack (calls : List (Call ℚ)) : Prop :=
  calls.Pairwise fun earlier later =>
    earlier.segment.audioStartTime - 25 ≤ later.segment.audioStartTime

/-- The other segment starts where one could that is recorded between this one and a candidate that
this one matches. -/
def near (segment other : AcceptedSegment ℚ) : Bool :=
  segment.audioStartTime - 25 ≤ other.audioStartTime &&
    other.audioStartTime ≤ segment.audioEndTime + 26.5

/-- From each recorded segment on, no more are recorded near it than fit into the buffer. -/
def Sparse (tables : CharTables) (calls : List (Call ℚ)) : Prop :=
  ∀ i segment, (recorded tables calls)[i]? = some segment →
    ((recorded tables calls).drop i).countP (near segment) ≤ 12

theorem ReachesBack.le_of_mem {before later : List (Call ℚ)} {call : Call ℚ}
    (h : ReachesBack (before ++ call :: later)) {earlier : Call ℚ} (hmem : earlier ∈ before) :
    earlier.segment.audioStartTime - 25 ≤ call.segment.audioStartTime :=
  (List.pairwise_append.mp h).2.2 earlier hmem call List.mem_cons_self

variable (tables) in
theorem ReachesBack.recorded {calls : List (Call ℚ)} (h : ReachesBack calls) :
    (recorded tables calls).Pairwise fun earlier later =>
      earlier.audioStartTime - 25 ≤ later.audioStartTime := by
  refine List.Pairwise.filterMap _
    (fun call call' hle accepted haccepted accepted' haccepted' => ?_) h
  obtain ⟨-, segment, rfl, rfl⟩ := Call.recorded?_eq_some.mp haccepted
  obtain ⟨-, segment', rfl, rfl⟩ := Call.recorded?_eq_some.mp haccepted'
  exact hle

/-- Between a recorded segment and a candidate that it matches, only what is near it is recorded. -/
theorem near_of_mem_drop {before later : List (Call ℚ)} {candidate : Segment ℚ} {i : ℕ}
    {other segment : AcceptedSegment ℚ}
    (hreach : ReachesBack (before ++ .check candidate :: later))
    (hi : (recorded tables before)[i]? = some other)
    (hstart : candidate.audioStartTime ≤ other.audioEndTime + 1.5)
    (hmem : segment ∈ (recorded tables before).drop i) : near other segment = true := by
  have hbefore : ReachesBack before := (List.pairwise_append.mp hreach).1
  rw [near, Bool.and_eq_true, decide_eq_true_eq, decide_eq_true_eq]
  constructor
  · obtain ⟨hlt, hget⟩ := List.getElem?_eq_some_iff.mp hi
    rw [List.drop_eq_getElem_cons hlt, hget] at hmem
    rcases List.mem_cons.mp hmem with rfl | hrest
    · linarith
    · have hpairwise := (hbefore.recorded tables).drop (i := i)
      rw [List.drop_eq_getElem_cons hlt, hget] at hpairwise
      exact List.rel_of_pairwise_cons hpairwise hrest
  · obtain ⟨call, hcall, hrecorded⟩ := List.mem_filterMap.mp (List.mem_of_mem_drop hmem)
    obtain ⟨-, recorded, rfl, rfl⟩ := Call.recorded?_eq_some.mp hrecorded
    have hle : recorded.audioStartTime - 25 ≤ candidate.audioStartTime := hreach.le_of_mem hcall
    norm_num at hstart ⊢
    show recorded.audioStartTime ≤ _
    linarith

/-- **Nothing that matches has left the buffer.** -/
theorem mem_prune_of_match {before later : List (Call ℚ)} {candidate : Segment ℚ}
    {other : AcceptedSegment ℚ}
    (hreach : ReachesBack (before ++ .check candidate :: later))
    (hsparse : Sparse tables (before ++ .check candidate :: later))
    (hother : other ∈ recorded tables before)
    (hmatch : isCrossSourceMatch (candidate.accepted tables) other = true) :
    other ∈ prune (after tables before) candidate.audioStartTime := by
  have hstart : candidate.audioStartTime ≤ other.audioEndTime + 1.5 :=
    (of_isCrossSourceMatch hmatch).2
  obtain ⟨n, hgone⟩ := Recent.exists_goneUpTo maxBufferLen tooOld
    (ops tables before ++ [.prune candidate.audioStartTime])
  obtain ⟨i, hi⟩ := List.mem_iff_getElem?.mp hother
  have hbuffer := hgone.run_eq
  rw [Recent.run_prune, run_ops, Recent.pushed_prune, pushed_ops] at hbuffer
  have hreason := hgone.reason i other
  rw [Recent.pushed_prune, pushed_ops] at hreason
  rw [prune, hbuffer]
  by_cases hn : i < n
  · exfalso
    rcases hreason hn hi with ⟨now, hnow, hold⟩ | hcap
    · -- it was found to be old by a call that the candidate does not reach back behind
      have hle : now - 25 ≤ candidate.audioStartTime := by
        rcases List.mem_append.mp hnow with hmem | hmem
        · obtain ⟨call, hcall, rfl⟩ := prune_mem_ops hmem
          exact hreach.le_of_mem hcall
        · obtain ⟨rfl⟩ : now = candidate.audioStartTime := by simpa using hmem
          linarith
      rw [tooOld, maxBufferAgeSecs, decide_eq_true_eq] at hold
      norm_num at hold hstart
      linarith
    · -- too many were recorded after it, all of them near it
      have hrest := hsparse i other
        (by rw [recorded, List.filterMap_append, ← recorded]
            rw [List.getElem?_append_left (by omega), hi])
      rw [recorded, List.filterMap_append, ← recorded, List.drop_append_of_le_length (by omega),
        List.countP_append, List.countP_eq_length.mpr fun segment hmem =>
          near_of_mem_drop hreach hi hstart hmem, List.length_drop] at hrest
      rw [maxBufferLen] at hcap
      omega
  · refine List.mem_of_getElem? (i := i - n) ?_
    rw [List.getElem?_drop, Nat.add_sub_cancel' (by omega), hi]

theorem decision_eq_dropAsMicEcho_iff {before later : List (Call ℚ)} {candidate : Segment ℚ}
    (hreach : ReachesBack (before ++ .check candidate :: later))
    (hsparse : Sparse tables (before ++ .check candidate :: later)) :
    decision tables before candidate = .dropAsMicEcho ↔
      candidate.source = .microphone ∧ ∃ other, .record other ∈ before ∧ other.source = .system ∧
        isCrossSourceMatch (candidate.accepted tables) (other.accepted tables) = true := by
  rw [decision, check_snd_eq_dropAsMicEcho_iff]
  refine and_congr_right fun hmicrophone => ⟨?_, ?_⟩
  · rintro ⟨other, hother, hmatch⟩
    obtain ⟨segment, hsegment, rfl⟩ :=
      exists_record_of_mem_after (List.dropWhile_subset _ hother)
    refine ⟨segment, hsegment, ?_, hmatch⟩
    have hsource : candidate.source ≠ segment.source := (of_isCrossSourceMatch hmatch).1
    rw [hmicrophone] at hsource
    cases hsystem : segment.source with
    | microphone => exact absurd hsystem.symm hsource
    | system => rfl
  · rintro ⟨other, hother, -, hmatch⟩
    refine ⟨other.accepted tables, mem_prune_of_match hreach hsparse ?_ hmatch, hmatch⟩
    refine List.mem_filterMap.mpr ⟨_, hother, Call.recorded?_eq_some.mpr ⟨?_, other, rfl, rfl⟩⟩
    intro hnil
    rw [isCrossSourceMatch_of_eq_nil (.inr hnil)] at hmatch
    exact absurd hmatch (by simp)

/-- **What is dropped** is what is of the microphone and matches a segment of the system that was
ever recorded; so nothing of the system is, and nothing if there is one source only. -/
theorem check_iff_echo {calls before later : List (Call ℚ)} {candidate : Segment ℚ}
    (hcalls : calls = before ++ .check candidate :: later) (hreach : ReachesBack calls)
    (hsparse : Sparse tables calls) :
    (decision tables before candidate = .dropAsMicEcho ↔
      candidate.source = .microphone ∧ ∃ other, .record other ∈ before ∧ other.source = .system ∧
        isCrossSourceMatch (candidate.accepted tables) (other.accepted tables) = true) ∧
    (candidate.source = .system → decision tables before candidate = .accept) ∧
    ∀ source, (∀ call ∈ calls, call.segment.source = source) →
      decision tables before candidate = .accept := by
  subst hcalls
  have hiff := decision_eq_dropAsMicEcho_iff hreach hsparse
  refine ⟨hiff, check_of_system _, fun source hsource => ?_⟩
  cases hdecision : decision tables before candidate with
  | accept => rfl
  | dropAsMicEcho =>
    obtain ⟨hmicrophone, other, hother, hsystem, -⟩ := hiff.mp hdecision
    have hcandidate : candidate.source = source := hsource (.check candidate) (by simp)
    have hothers : other.source = source :=
      hsource (.record other) (List.mem_append_left _ hother)
    rw [hothers, ← hcandidate, hmicrophone] at hsystem
    exact absurd hsystem (by simp)

/-! ### A run -/

/-- The tables, for texts that are ASCII. -/
def asciiTables : CharTables := ⟨List.map Char.toLower, Char.isAlphanum⟩

/-- A segment of the system is recorded, and heard again by the microphone. -/
def echoedCalls : List (Call ℚ) :=
  [.record ⟨.system, "We should ship this Friday.".toList, 10, 13⟩]

/-- The copy of the microphone. -/
def echoCopy : Segment ℚ := ⟨.microphone, "we should ship this friday".toList, 10.3, 13.4⟩

theorem check_iff_echo_friday :
    ReachesBack (echoedCalls ++ [.check echoCopy]) ∧
    Sparse asciiTables (echoedCalls ++ [.check echoCopy]) ∧
    decision asciiTables echoedCalls echoCopy = .dropAsMicEcho := by
  have hreach : ReachesBack (echoedCalls ++ [.check echoCopy]) := by
    simp only [ReachesBack, echoedCalls, List.singleton_append, List.pairwise_pair, Call.segment,
      echoCopy]
    norm_num
  have hsparse : Sparse asciiTables (echoedCalls ++ [.check echoCopy]) := by
    intro i segment _
    refine List.countP_le_length.trans ?_
    rw [List.length_drop]
    have hlength : (recorded asciiTables (echoedCalls ++ [.check echoCopy])).length ≤ 2 :=
      List.length_filterMap_le _ _
    omega
  refine ⟨hreach, hsparse, ?_⟩
  refine (check_iff_echo rfl hreach hsparse).1.mpr ⟨rfl, _, List.mem_singleton_self _, rfl, ?_⟩
  decide +kernel

/-! ### A segment that is pushed out -/

/-- A short answer of a second. -/
def shortAnswer (start : ℚ) : Segment ℚ := ⟨.system, "Okay.".toList, start, start + 1⟩

/-- A segment of the system. -/
def firstSegment : Segment ℚ := ⟨.system, "We should ship this Friday.".toList, 20, 22⟩

/-- It, and then a backlog of twelve of which the last one is of later. -/
def busySegments : List (Segment ℚ) :=
  firstSegment :: [0, 2, 3, 4, 5, 6, 7, 8, 9, 10, 11, 31.5].map shortAnswer

/-- Each of them is checked and recorded. -/
def busyCalls : List (Call ℚ) :=
  busySegments.flatMap fun segment => [.check segment, .record segment]

/-- The microphone's copy of the first one. -/
def lateCopy : Segment ℚ := ⟨.microphone, "we should ship this friday".toList, 22.5, 24⟩

theorem shortAnswer_mem_recorded (start : ℚ) (h : shortAnswer start ∈ busySegments) :
    (shortAnswer start).accepted asciiTables ∈ recorded asciiTables busyCalls :=
  List.mem_filterMap.mpr ⟨.record (shortAnswer start),
    List.mem_flatMap.mpr ⟨shortAnswer start, h, by simp⟩,
    Call.recorded?_eq_some.mpr ⟨show normalizeForComparison asciiTables "Okay.".toList ≠ [] by
      decide +kernel, _, rfl, rfl⟩⟩

/-- **Twelve segments within any thirty seconds are too many**: the cap pushes out a segment that
the candidate matches. -/
theorem not_check_iff_echo :
    (∀ start : ℚ, (recorded asciiTables busyCalls).countP (fun segment =>
      start ≤ segment.audioEndTime && segment.audioStartTime ≤ start + 30) ≤ 12) ∧
    ReachesBack (busyCalls ++ [.check lateCopy]) ∧
    lateCopy.source = .microphone ∧
    (∃ other, .record other ∈ busyCalls ∧ other.source = .system ∧
      isCrossSourceMatch (lateCopy.accepted asciiTables) (other.accepted asciiTables) = true) ∧
    decision asciiTables busyCalls lateCopy = .accept := by
  refine ⟨fun start => ?_, ?_, rfl, ⟨firstSegment, ?_, rfl, ?_⟩, ?_⟩
  · -- the first of the backlog and its last are more than thirty seconds apart
    have hlength : (recorded asciiTables busyCalls).length = 13 := by decide +kernel
    refine Nat.le_of_lt_succ ((List.countP_lt_length_iff.mpr ?_).trans_eq hlength)
    by_cases hstart : start ≤ 1
    · refine ⟨_, shortAnswer_mem_recorded 31.5 (by simp [busySegments]), ?_⟩
      have hlate : ¬ (31.5 : ℚ) ≤ start + 30 := by
        norm_num
        linarith
      simp [Segment.accepted, shortAnswer, hlate]
    · refine ⟨_, shortAnswer_mem_recorded 0 (by simp [busySegments]), ?_⟩
      simp [Segment.accepted, shortAnswer, hstart]
  · unfold ReachesBack
    decide +kernel
  · simp [busyCalls, busySegments]
  · decide +kernel
  · decide +kernel

end EchoDedup

end MeetilyLocal
